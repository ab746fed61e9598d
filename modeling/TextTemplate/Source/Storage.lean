import TextTemplate.Template.Id

/-! Where texts come from: anything that answers for one name in one locale. -/

namespace TextTemplate

/-- Why texts cannot be reached. -/
structure StorageError where
  reason : String
  deriving DecidableEq, Repr

def StorageError.message (e : StorageError) : String := "storage error: " ++ e.reason

/-- Where template texts are kept. Answers are for one locale alone; there may be no text. -/
structure Storage (m : Type → Type) where
  fetch : TextName → Locale → m (Except StorageError (Option String))

namespace Storage

variable {m : Type → Type} [Monad m]

/-- The text for the first of the locales that has one. -/
def findIn (s : Storage m) (name : TextName) :
    List Locale → m (Except StorageError (Option String))
  | [] => pure (.ok none)
  | l :: rest => do
    match ← s.fetch name l with
    | .ok none => findIn s name rest
    | answer => pure answer

/-- The text for a locale, or for the nearest less specific one that has a text. -/
def find (s : Storage m) (name : TextName) (l : Locale) :
    m (Except StorageError (Option String)) := s.findIn name l.fallbacks

end Storage

end TextTemplate

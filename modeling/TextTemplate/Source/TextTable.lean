import TextTemplate.Source.Storage

/-! Templates and messages in memory. -/

namespace TextTemplate

/-- Texts by name and locale. Paths are kept as texts, so that one that names nothing can be kept
as well. -/
structure TextTable where
  sources : List ((String × Locale) × String)
  messages : List ((String × String × Locale) × String)

namespace TextTable

def empty : TextTable := ⟨[], []⟩

def suffix : String := ".stencil"

def pathKey (path : String) : String :=
  match SourcePath.clean? path suffix with
  | some p => p.text
  | none => path

/-- Adds a text; an earlier one under the same name gives way. -/
def addSource (t : TextTable) (path : String) (l : Locale) (text : String) : TextTable :=
  { t with sources := ((pathKey path, l), text) :: t.sources }

def addMessage (t : TextTable) (bundle key : String) (l : Locale) (text : String) : TextTable :=
  { t with messages := ((bundle, key, l), text) :: t.messages }

def get? (t : TextTable) (name : TextName) (l : Locale) : Option String :=
  match name with
  | .source path => t.sources.lookup (path.text, l)
  | .message bundle key => t.messages.lookup (bundle, key, l)

/-- The table as a storage, which never fails. -/
def storage {m : Type → Type} [Monad m] (t : TextTable) : Storage m :=
  ⟨fun name l => pure (.ok (t.get? name l))⟩

end TextTable

end TextTemplate

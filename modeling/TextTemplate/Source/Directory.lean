import TextTemplate.Source.Properties
import TextTemplate.Source.Storage
import TextTemplate.Text.Bytes

/-! Templates and messages in the files of a directory. -/

namespace TextTemplate

/-- Why a file cannot be read as text. -/
inductive ReadFault where
  | notFound
  | notADirectory
  | isDirectory
  | nameTooLong
  | nulInName
  | notText
  | other (message : String)
  deriving DecidableEq, Repr

def ReadFault.message : ReadFault → String
  | notFound => "No such file or directory (os error 2)"
  | notADirectory => "Not a directory (os error 20)"
  | isDirectory => "Is a directory (os error 21)"
  | nameTooLong => "File name too long (os error 36)"
  | nulInName => "file name contained an unexpected NUL byte"
  | notText => "stream did not contain valid UTF-8"
  | other message => message

/-- Reads files. -/
abbrev FileReader (m : Type → Type) := String → m (Except ReadFault ByteArray)

/-- The text of a file, whose bytes must be one. -/
def FileReader.text {m : Type → Type} [Monad m] (read : FileReader m) (path : String) :
    m (Except ReadFault String) := do
  match ← read path with
  | .error fault => pure (.error fault)
  | .ok bytes =>
    match String.fromUTF8? bytes with
    | some text => pure (.ok text)
    | none => pure (.error .notText)

namespace Directory

/-- A path below a directory; an absolute one stands for itself. -/
def join (root path : String) : String :=
  if path.startsWith "/" ∨ root = "" then path
  else if root.endsWith "/" then root ++ path
  else root ++ "/" ++ path

def localized (name : String) (l : Locale) : String :=
  if l.isRoot then name else name ++ "_" ++ l.tag

/-- The file that a text is kept in: a template in one of its own, messages in that of their
bundle. -/
def file (root suffix : String) (l : Locale) : TextName → String
  | .source path => join root (localized path.relative l ++ suffix)
  | .message bundle _ => join root (localized bundle l ++ ".properties")

/-- What the text of a file says about a name. -/
def textIn (content : String) : TextName → Option String
  | .source _ => some content
  | .message _ key => (Properties.ofText content).get? key

/-- The templates and messages of a directory. A file that is not there holds no text. -/
def storage {m : Type → Type} [Monad m] (read : FileReader m) (root suffix : String) : Storage m :=
  ⟨fun name l => do
    let path := file root suffix l name
    match ← read.text path with
    | .ok content => pure (.ok (textIn content name))
    | .error .notFound => pure (.ok none)
    | .error fault => pure (.error ⟨path ++ ": " ++ fault.message⟩)⟩

end Directory

end TextTemplate

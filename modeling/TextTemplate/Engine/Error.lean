import TextTemplate.Source.Storage
import TextTemplate.Template.Fault

namespace TextTemplate

/-- Why there is no compiled template. -/
inductive TemplateError where
  /-- A path that names nothing, or none at all. -/
  | unnamed (raw : Option String)
  | missing (id : TemplateId)
  | storage (id : TemplateId) (e : StorageError)
  | parse (e : ParseError)
  deriving DecidableEq, Repr

def TemplateError.message : TemplateError → String
  | unnamed none => "stencil not found: (no path)"
  | unnamed (some raw) => "stencil not found: `" ++ raw ++ "` names no stencil"
  | missing id => "stencil not found: " ++ id.shown
  | storage id e => id.shown ++ ": " ++ e.message
  | parse e => "parse error in " ++ e.shown

/-- The clean path of a text that has to name a template. -/
def SourcePath.clean (raw suffix : String) : Except TemplateError SourcePath :=
  match SourcePath.clean? raw suffix with
  | some p => .ok p
  | none => .error (.unnamed (some raw))

/-- The path that a target has to name as seen from another. -/
def SourcePath.resolve (p : SourcePath) (target suffix : String) :
    Except TemplateError SourcePath :=
  match p.resolve? target suffix with
  | some q => .ok q
  | none => .error (.unnamed (some (p.sought target)))

end TextTemplate

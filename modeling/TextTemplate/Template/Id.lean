import TextTemplate.Source.Locale
import TextTemplate.Source.Path

namespace TextTemplate

/-- What a template text is kept under: a path, or a key in a bundle of messages. -/
inductive TextName where
  | source (path : SourcePath)
  | message (bundle key : String)
  deriving DecidableEq, Repr

def TextName.shown : TextName → String
  | source path => path.text
  | message bundle key => bundle ++ ":" ++ key

/-- What a template is compiled from, and the settings it starts with. -/
structure TemplateId where
  name : TextName
  locale : Locale
  bundle : Option String
  escape : String
  deriving DecidableEq, Repr

namespace TemplateId

def source (path : SourcePath) (locale : Locale) (bundle : Option String) (escape : String) :
    TemplateId := ⟨.source path, locale, bundle, escape⟩

/-- A message; resources without a bundle inside it are of its own. -/
def message (bundle key : String) (locale : Locale) (escape : String) : TemplateId :=
  ⟨.message bundle key, locale, some bundle, escape⟩

/-- How messages show the template: its name, and the locale unless that is the root. -/
def shown (id : TemplateId) : String :=
  if id.locale.isRoot then id.name.shown else id.name.shown ++ " [" ++ id.locale.tag ++ "]"

end TemplateId

end TextTemplate

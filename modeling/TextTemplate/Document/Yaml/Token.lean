import TextTemplate.Document.Yaml.Tag

namespace TextTemplate.Yaml

/-- What a document is written with. Besides the marks that are written these are the beginnings and
ends of the collections that only the indentation shows, and the beginnings of keys. -/
inductive Token where
  | directive (d : Directive)
  | documentStart
  | documentEnd
  | sequenceStart
  | mappingStart
  | blockEnd
  | openBracket
  | closeBracket
  | openBrace
  | closeBrace
  | comma
  | dash
  | key
  | colon
  | alias (name : String)
  | anchor (name : String)
  | tag (name : TagName)
  | scalar (quoted : Bool) (text : String)
  deriving DecidableEq, Repr

end TextTemplate.Yaml

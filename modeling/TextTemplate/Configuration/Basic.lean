namespace TextTemplate

/-- The settings of an engine. -/
structure Configuration where
  /-- The locale of those who name none. -/
  locale : String
  escape : String
  bundle : Option String
  /-- The suffix that paths may carry and files do. -/
  suffix : String
  includeLimit : Nat
  pageSize : Nat
  deriving DecidableEq, Repr

namespace Configuration

def standard : Configuration :=
  { locale := "en", escape := "html", bundle := none, suffix := ".stencil", includeLimit := 64
    pageSize := 10 }

end Configuration

end TextTemplate

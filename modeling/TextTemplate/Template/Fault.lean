import TextTemplate.Format.Error
import TextTemplate.Parameter.Setting
import TextTemplate.Scan.Token
import TextTemplate.Template.Block
import TextTemplate.Template.Position

namespace TextTemplate

/-- What is wrong with the call that a directive asks for. -/
inductive ApplyFault where
  | stray (text : String)
  | noFunction
  | noFunctionAfter (out : String)
  | unexpected (t : ParameterToken)
  | notClosed
  | extra (t : ParameterToken)
  | notOpened (found : ParameterToken)
  deriving DecidableEq, Repr

inductive PreambleFault where
  | settings (e : SettingsError)
  | unknownMode (mode : String)
  | unknownSetting (key : String)
  deriving DecidableEq, Repr

/-- What is wrong with a template text. -/
inductive ParseFault where
  | scan (e : ScanError)
  | preamble (f : PreambleFault)
  | elseOutside
  | endOutside
  | missingEnd
  | noDataPath (directive found : String)
  | unknownStyle (name : String)
  | unknownSetting (key : String)
  | unknownDirective (name : String)
  | malformedFallback (text : String)
  | format (e : FormatError)
  | valueInInverted
  | noBundle (key : String)
  | inclusionInMessage
  | inclusionOfNothing
  | inclusionUnnamed (target : String)
  | settings (e : SettingsError)
  | noSettings
  | apply (f : ApplyFault)
  deriving DecidableEq, Repr

namespace ApplyFault

def message : ApplyFault → String
  | stray text => "unexpected `" ++ text ++ "` in [apply]"
  | noFunction => "[apply] needs a function"
  | noFunctionAfter out => "expected a function after `" ++ out ++ "=`"
  | unexpected t => "unexpected " ++ t.shown ++ " in arguments"
  | notClosed => "missing `)` in [apply]"
  | extra t => "unexpected " ++ t.shown ++ " after arguments"
  | notOpened found => "expected `(`, found " ++ found.shown

end ApplyFault

namespace PreambleFault

def message : PreambleFault → String
  | settings e => e.message
  | unknownMode mode => "unknown global mode `" ++ mode ++ "`"
  | unknownSetting key => "unknown global setting `" ++ key ++ "`"

end PreambleFault

namespace ParseFault

def message : ParseFault → String
  | scan e => e.message
  | preamble f => f.message
  | elseOutside => "[else] without an open [if], [loop] or [use]"
  | endOutside => "[end] without an open block"
  | missingEnd => "missing [end]"
  | noDataPath directive found =>
    "[" ++ directive ++ "] needs a data path, found `" ++ found ++ "`"
  | unknownStyle name => "unknown escape style `" ++ name ++ "`"
  | unknownSetting key => "unknown setting `" ++ key ++ "`"
  | unknownDirective name => "unknown directive [" ++ name ++ "]"
  | malformedFallback text => "malformed fallback `" ++ text ++ "`"
  | format e => e.message
  | valueInInverted => "value here-documents are not available in inverted mode"
  | noBundle key => "[\x7b" ++ key ++ "\x7d] needs a default bundle"
  | inclusionInMessage => "[include] is not allowed in message stencils"
  | inclusionOfNothing => "[include] needs a path"
  | inclusionUnnamed target => "include path `" ++ target ++ "` names no stencil"
  | settings e => e.message
  | noSettings => "[set] needs at least one setting"
  | apply f => f.message

end ParseFault

/-- A fault at a byte of a text. -/
structure PlacedFault where
  fault : ParseFault
  offset : Nat
  deriving DecidableEq, Repr

/-- Why a template text does not compile. -/
structure ParseError where
  template : String
  fault : ParseFault
  position : Position
  deriving DecidableEq, Repr

namespace ParseError

def message (e : ParseError) : String := e.fault.message

/-- The message with the template and the position in front. -/
def shown (e : ParseError) : String :=
  e.template ++ " at " ++ e.position.shown ++ ": " ++ e.message

end ParseError

end TextTemplate

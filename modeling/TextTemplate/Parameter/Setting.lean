import TextTemplate.Parameter.Token

/-! Lists of settings: `key=value`, with commas between them or not. -/

namespace TextTemplate

/-- A name and the value it is set to. -/
structure Setting where
  key : String
  value : String
  deriving DecidableEq, Repr

inductive SettingsError where
  | stray (text : String)
  | unexpected (t : ParameterToken)
  | missingEquals (key : String)
  | missingValue (key : String)
  deriving DecidableEq, Repr

namespace SettingsError

def message : SettingsError → String
  | stray text => "unexpected `" ++ text ++ "`"
  | unexpected t => "expected a setting name, found " ++ t.shown
  | missingEquals key => "expected `=` after `" ++ key ++ "`"
  | missingValue key => "missing value for `" ++ key ++ "`"

end SettingsError

namespace Setting

/-- Reads settings. Commas count for nothing. -/
def ofTokens : List ParameterToken → Except SettingsError (List Setting)
  | [] => .ok []
  | .comma :: rest => ofTokens rest
  | .word key :: .equals :: .word value :: rest => (ofTokens rest).map (⟨key, value⟩ :: ·)
  | .word key :: .equals :: .quoted value :: rest => (ofTokens rest).map (⟨key, value⟩ :: ·)
  | .word key :: .equals :: _ => .error (.missingValue key)
  | .word key :: _ => .error (.missingEquals key)
  | t :: _ => .error (.unexpected t)

def ofText (text : String) : Except SettingsError (List Setting) :=
  match ParameterToken.ofText text with
  | .error stray => .error (.stray stray.text)
  | .ok tokens => ofTokens (tokens.map (·.token))

end Setting

end TextTemplate

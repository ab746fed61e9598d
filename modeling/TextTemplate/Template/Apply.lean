import TextTemplate.Template.Fault

namespace TextTemplate

/-- A function, what to call it with, and where its value goes. -/
structure ApplyCall where
  function : DataPath
  out : Option DataPath
  parameters : List Parameter
  deriving DecidableEq, Repr

namespace ApplyCall

/-- Reads the parameters up to the closing parenthesis, and the tokens after it. A place that holds
nothing is null; only a list of no places at all is empty. `held` is what the current place holds,
`separated` says that there was a comma. -/
def readParameters (held : Option Parameter) (separated : Bool) :
    List ParameterToken → Except ApplyFault (List Parameter × List ParameterToken)
  | [] => .error .notClosed
  | .closing :: rest =>
    .ok (if held.isSome || separated then [held.getD .null] else [], rest)
  | .comma :: rest =>
    (readParameters none true rest).map fun (ps, rest) => (held.getD .null :: ps, rest)
  | t :: rest =>
    match held, t with
    | none, .word text => readParameters (some (.datum (DataPath.ofText text))) separated rest
    | none, .quoted text => readParameters (some (.literal text)) separated rest
    | _, t => .error (.unexpected t)

/-- Reads what follows the name of the function. -/
def readArguments : List ParameterToken → Except ApplyFault (List Parameter)
  | [] => .ok []
  | .opening :: rest =>
    match readParameters none false rest with
    | .error e => .error e
    | .ok (ps, []) => .ok ps
    | .ok (_, t :: _) => .error (.extra t)
  | t :: _ => .error (.notOpened t)

def ofTokens : List ParameterToken → Except ApplyFault ApplyCall
  | .word out :: .equals :: .word function :: rest =>
    (readArguments rest).map fun ps => ⟨DataPath.ofText function, some (DataPath.ofText out), ps⟩
  | .word out :: .equals :: _ => .error (.noFunctionAfter out)
  | .word function :: rest =>
    (readArguments rest).map fun ps => ⟨DataPath.ofText function, none, ps⟩
  | _ => .error .noFunction

def ofText (text : String) : Except ApplyFault ApplyCall :=
  match ParameterToken.ofText text with
  | .error stray => .error (.stray stray.text)
  | .ok tokens => ofTokens (tokens.map (·.token))

end ApplyCall

end TextTemplate

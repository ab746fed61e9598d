import TextTemplate.Template.Apply
import TextTemplate.Template.Defaults
import TextTemplate.Text.Alphanumeric

namespace TextTemplate.Block

/-- The styles of a kind: two with a comma between them for `datetime`, for any other kind the whole
text. -/
def styles (kind : String) (text : List Char) : List String :=
  match Text.trim text with
  | [] => []
  | cs =>
    match (if kind = "datetime" then Text.splitFirst? (· = ',') cs else none) with
    | some (first, second) => [String.ofList (Text.trim first), String.ofList (Text.trim second)]
    | none => [String.ofList cs]

def ofFormat (path : DataPath) (escape : EscapeStyle) (kind : String) (styles : List String) :
    Except ParseFault Block :=
  match Format.compile kind styles with
  | .ok format => .ok (typed path escape format)
  | .error e => .error (.format e)

/-- The fallback that a quoted text is. -/
def fallback (text : String) : Except ParseFault String :=
  match ParameterToken.ofText text with
  | .ok [⟨.quoted text, _, _⟩] => .ok text
  | _ => .error (.malformedFallback text)

/-- A value: plain, with a quoted fallback, or with a kind and styles after commas. -/
def ofValue (ctx : TemplateContext) (d : Defaults) (escape : Option String) (path : String)
    (rest : Option String) : Except ParseFault Block := do
  let escape ← d.style ctx escape
  let path := DataPath.ofText path
  match Text.trim (rest.getD "").toList with
  | [] => .ok (value path escape none)
  | '\'' :: cs =>
    (fallback (String.ofList ('\'' :: cs))).map fun text => value path escape (some text)
  | cs =>
    match Text.splitFirst? (· = ',') cs with
    | none => ofFormat path escape (String.ofList cs) []
    | some (kind, rest) =>
      let kind := String.ofList (Text.trim kind)
      ofFormat path escape kind (styles kind rest)

/-- A here-document: text if it has no path, else a value whose fallback or last style is the
body. -/
def ofHereDocument (ctx : TemplateContext) (d : Defaults) (escape path kind given : Option String)
    (body : String) : Except ParseFault Block := do
  let escape ← d.style ctx escape
  match path, kind with
  | none, _ => .ok (text (escape.apply body) true)
  | some path, none => .ok (value (DataPath.ofText path) escape (some body))
  | some path, some kind =>
    ofFormat (DataPath.ofText path) escape kind (styles kind (given.getD "").toList ++ [body])

/-- A message; one key names a message of the bundle in effect. -/
def ofResource (ctx : TemplateContext) (d : Defaults) (first : String) (second : Option String) :
    Except ParseFault Block :=
  match second, d.bundle with
  | some key, _ => .ok (resource ⟨.message first key ctx.id.locale d.escape.name, none⟩)
  | none, some bundle => .ok (resource ⟨.message bundle first ctx.id.locale d.escape.name, none⟩)
  | none, none => .error (.noBundle first)

/-- Another template, by its path as seen from this one. Messages have no place to see it from. -/
def ofInclusion (ctx : TemplateContext) (d : Defaults) (param : String) : Except ParseFault Block :=
  match ctx.id.name with
  | .message .. => .error .inclusionInMessage
  | .source base =>
    let target := Text.trimmed param
    if target = "" then .error .inclusionOfNothing
    else match base.resolve? target ctx.suffix with
      | none => .error (.inclusionUnnamed target)
      | some path => .ok (inclusion ⟨.source path ctx.id.locale d.bundle d.escape.name, none⟩)

def ofApply (param : String) : Except ParseFault Block :=
  match ApplyCall.ofText param with
  | .ok call => .ok (apply call.function call.out call.parameters)
  | .error fault => .error (.apply fault)

/-- Settings, and what is in effect after them. -/
def ofSettings (ctx : TemplateContext) (d : Defaults) (param : String) :
    Except ParseFault (Block × Defaults) :=
  match Setting.ofText param with
  | .error e => .error (.settings e)
  | .ok [] => .error .noSettings
  | .ok settings => (settings.foldlM (Defaults.set ctx) d).map (set settings, ·)

/-- The block that a token is by itself, and what is in effect after it. -/
def ofToken (ctx : TemplateContext) (d : Defaults) : Token → Except ParseFault (Block × Defaults)
  | .text s => .ok (text s false, d)
  | .comment ofValue => .ok (comment ofValue, d)
  | .value escape path rest => (ofValue ctx d escape path rest).map (·, d)
  | .hereDocument escape path kind styles body _ =>
    (ofHereDocument ctx d escape path kind styles body).map (·, d)
  | .resource first second => (ofResource ctx d first second).map (·, d)
  | .directive name param =>
    match name with
    | "apply" => (ofApply param).map (·, d)
    | "include" => (ofInclusion ctx d param).map (·, d)
    | "set" => ofSettings ctx d param
    | other => .error (.unknownDirective other)

/-- The path that a branch depends on: letters and digits of any script, underscores and dots. -/
def branchPath (kind : BranchKind) (param : String) : Except ParseFault DataPath :=
  let cs := Text.trim param.toList
  if cs ≠ [] ∧ cs.all fun c => Text.isAlphanumeric c || c == '_' || c == '.' then
    .ok (DataPath.ofText (String.ofList cs))
  else .error (.noDataPath kind.name (String.ofList cs))

end TextTemplate.Block

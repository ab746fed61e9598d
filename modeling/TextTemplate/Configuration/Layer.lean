import TextTemplate.Configuration.Basic
import TextTemplate.Document.Toml.Reader
import TextTemplate.Text.Case

/-! Configurations from layers. A later layer counts more than an earlier one, and a single setting
more than all documents. -/

namespace TextTemplate

/-- Something that settings are taken from. -/
inductive ConfigurationLayer where
  | document (text : String)
  | missingFile (name : String) (required : Bool)
  /-- One setting, which counts more than any document. -/
  | override (key : String) (value : Toml)

/-- Why layers give no configuration. -/
inductive ConfigurationError where
  | malformedDocument
  | missingFile (name : String)
  | malformedKey (key : String)
  | unsuitable (key : String)
  deriving DecidableEq, Repr

def ConfigurationError.message : ConfigurationError → String
  | malformedDocument => "malformed document"
  | missingFile name => "configuration file \"" ++ name ++ "\" not found"
  | malformedKey key => "malformed key `" ++ key ++ "`"
  | unsuitable key => "unsuitable value for key `" ++ key ++ "`"

/-- A setting as text; numbers and truth values have one. -/
def Toml.asText? : Toml → Option String
  | text s | moment s => some s
  | int n => some (toString n)
  | float x => some (Float64.text x)
  | bool b => some (toString b)
  | _ => none

/-- A setting as a count. Truth values and the words for them are one and zero; floats are rounded
and brought into range. -/
def Toml.asCount? : Toml → Option Nat
  | int n => if 0 ≤ n then some n.toNat else none
  | float x => some x.round.toUInt64.toNat
  | bool b => some b.toNat
  | text s =>
    let word := String.ofList (Text.lower s.toList)
    if ["true", "on", "yes"].contains word then some 1
    else if ["false", "off", "no"].contains word then some 0
    else Value.readIndex? s
  | _ => none

namespace ConfigurationLayer

def isKeyChar (c : Char) : Bool := c.isAlphanum || c == '_' || c == '-'

/-- The rest after a position in brackets, which may count from the end. -/
def readPosition? (cs : List Char) : Option (List Char) :=
  let cs := Toml.skipGap cs
  let (negative, cs) := match cs with
    | '-' :: rest => (true, rest)
    | _ => (false, cs)
  let ds := cs.takeWhile Char.isDigit
  let n : Int := (Decimal.readDigits 0 ds).getD 0
  let fits := Value.leastInt ≤ (if negative then -n else n) ∧ n ≤ Value.greatestInt + negative.toNat
  match Toml.skipGap (cs.drop ds.length) with
  | ']' :: rest => if ds ≠ [] ∧ fits then some rest else none
  | _ => none

/-- Whether the text is empty or goes on with names and positions: `.name` and `[1]`. -/
def isKeyTail : Nat → List Char → Bool
  | _, [] => true
  | 0, _ => false
  | fuel + 1, '.' :: cs =>
    cs.head?.any isKeyChar && isKeyTail fuel (cs.dropWhile isKeyChar)
  | fuel + 1, '[' :: cs => (readPosition? cs).any (isKeyTail fuel)
  | _, _ => false

/-- The setting that a key belongs to, and whether it names only a part of it. -/
def keyRoot? (key : String) : Option (String × Bool) :=
  let name := key.toList.takeWhile isKeyChar
  let tail := key.toList.dropWhile isKeyChar
  if name ≠ [] ∧ isKeyTail tail.length tail then some (String.ofList name, tail ≠ []) else none

/-- Sets a key. Of a part only that it is there is kept, which makes the setting no single value. -/
def setKey (key : String × Bool) (v : Toml) (settings : Fields Toml) : Fields Toml :=
  settings.set key.1 (if key.2 then .table .header [] else v)

/-- Adds the settings of a layer that is no override. -/
def addTo (settings : Fields Toml) : ConfigurationLayer → Except ConfigurationError (Fields Toml)
  | document text =>
    match Toml.ofText? (Text.dropByteOrderMark text) with
    | none => .error .malformedDocument
    | some entries => .ok (entries.foldl (fun settings (key, v) =>
        setKey ((keyRoot? key).getD (key, false)) v settings) settings)
  | missingFile name required => if required then .error (.missingFile name) else .ok settings
  | override .. => .ok settings

def overrideIn (settings : Fields Toml) : ConfigurationLayer →
    Except ConfigurationError (Fields Toml)
  | override key v =>
    match keyRoot? key with
    | some root => .ok (setKey root v settings)
    | none => .error (.malformedKey key)
  | _ => .ok settings

/-- A setting read by `f`, or the standard one if it is not set. -/
def setting {α : Type} (settings : Fields Toml) (key : String) (f : Toml → Option α)
    (standard : α) :
    Except ConfigurationError α :=
  match settings.get? key with
  | none => .ok standard
  | some v =>
    match f v with
    | some a => .ok a
    | none => .error (.unsuitable key)

end ConfigurationLayer

/-- The configuration that layers give, later ones counting more than earlier ones and overrides
more than all others. -/
def Configuration.ofLayers (layers : List ConfigurationLayer) :
    Except ConfigurationError Configuration := do
  let settings ← layers.foldlM ConfigurationLayer.addTo []
  let settings ← layers.foldlM ConfigurationLayer.overrideIn settings
  let read {α : Type} := @ConfigurationLayer.setting α settings
  let s := Configuration.standard
  let locale ← read "locale" Toml.asText? s.locale
  let escape ← read "escape" Toml.asText? s.escape
  let bundle ← read "bundle" (fun v => v.asText?.map some) s.bundle
  let suffix ← read "suffix" Toml.asText? s.suffix
  let includeLimit ← read "max_include_depth" Toml.asCount? s.includeLimit
  let pageSize ← read "page_size" Toml.asCount? s.pageSize
  .ok { locale, escape, bundle, suffix, includeLimit, pageSize }

end TextTemplate

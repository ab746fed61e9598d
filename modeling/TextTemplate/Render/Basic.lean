import TextTemplate.Engine.Error
import TextTemplate.Function.Basic
import TextTemplate.Template.Block

/-! Writing a template: its blocks in order, each with the data as the blocks before it left them.
When that fails, what was written and stored before stays. -/

namespace TextTemplate

/-- Why writing a template ended early. -/
inductive RenderError where
  | template (e : TemplateError)
  | function (name : String) (e : FunctionError)
  | write
  | tooDeep (id : TemplateId) (limit : Nat)
  deriving DecidableEq, Repr

def RenderError.message : RenderError → String
  | template e => e.message
  | function name e => "function `" ++ name ++ "` failed: " ++ e.message
  | write => "failed to write output"
  | tooDeep id limit =>
    "include depth limit of " ++ toString limit ++ " exceeded while rendering " ++ id.shown

/-- Where output goes. No write may take it past the limit, counted in bytes. -/
structure Sink where
  text : String
  limit : Option Nat
  deriving DecidableEq, Repr

namespace Sink

def empty : Sink := ⟨"", none⟩

def limited (limit : Nat) : Sink := ⟨"", some limit⟩

def write? (s : Sink) (text : String) : Option Sink :=
  if s.limit.all (s.text.utf8ByteSize + text.utf8ByteSize ≤ ·) then
    some { s with text := s.text ++ text }
  else none

end Sink

/-- What changes while a template is written. -/
structure RenderState where
  data : Data
  sink : Sink

/-- What stays the same. `load` gives the templates that are included. -/
structure RenderContext (m : Type → Type) where
  load : Handle TemplateId → m (Except TemplateError Template)
  /-- The functions that are found in data. -/
  carried : FunctionRef → Option Function
  /-- The functions that are found by name where the data have nothing. -/
  functions : Fields Function
  /-- How deep templates may be included in one another. -/
  limit : Nat

/-- Writing may fail; what was written and stored up to then stays. -/
abbrev RenderM (m : Type → Type) := ExceptT RenderError (StateT RenderState m)

namespace Render

variable {m : Type → Type} [Monad m]

def data : RenderM m Data := return (← get).data

def write (text : String) : RenderM m Unit := do
  let s ← get
  match s.sink.write? text with
  | some sink => set { s with sink }
  | none => throw .write

/-- Writes text through an escape style. Where there is no text, nothing is written. -/
def writeEscaped (escape : EscapeStyle) (text : Option String) : RenderM m Unit :=
  match text with
  | none | some "" => pure ()
  | some text => write (escape.apply text)

/-- Runs `body` in another scope. Afterwards, and after a failure too, the scope is what it was. -/
def inScope (enter : Data → Data) (body : RenderM m Unit) : RenderM m Unit := fun s => do
  let (result, after) ← body { s with data := enter s.data }
  pure (result, { after with data := { after.data with scope := s.data.scope } })

/-- Does something once for each number below `count`, from `first` on. -/
def forTurns (body : Nat → RenderM m Unit) : Nat → Nat → RenderM m Unit
  | 0, _ => pure ()
  | count + 1, first => do
    body first
    forTurns body count (first + 1)

/-- The function at a path: in the data, or by its name if the data have nothing there. -/
def findFunction (ctx : RenderContext m) (d : Data) (path : DataPath) :
    Except RenderError Function :=
  let found := match d.get? path with
    | some (.function f) => ctx.carried f
    | none | some .null => ctx.functions.get? path.text
    | some _ => none
  match found with
  | some f => .ok f
  | none => .error (.function path.text (.notAFunction path.text))

/-- Calls a function and stores its value. The parameters are read before the function is found. -/
def call (ctx : RenderContext m) (path : DataPath) (out : Option DataPath)
    (parameters : List Parameter) : RenderM m Unit := do
  let s ← get
  let args := parameters.map (·.bind s.data)
  let f ← findFunction ctx s.data path
  let (result, d) := (f args).run.run s.data
  match result with
  | .error e =>
    set { s with data := d }
    throw (.function path.text e)
  | .ok v =>
    match out with
    | some target => set { s with data := d.put target v }
    | none => set { s with data := d }

/-- Chooses the parts that a branch runs. `main` and `otherwise` write them. -/
def branch (kind : BranchKind) (path : DataPath) (main otherwise : RenderM m Unit) :
    RenderM m Unit := do
  let d ← data
  match kind, d.get? path with
  | .condition, v => if v.any Value.isTruthy then main else otherwise
  | .use, some v => inScope (·.child v) main
  | .loop, some v =>
    let q := d.store.sequence v
    let size := q.length d.store
    if size = 0 then otherwise
    else forTurns (fun i =>
      inScope (fun d => d.turn ((q.item? d.store i).getD .null) i size) main) size 0
  | _, none => otherwise

mutual

/-- Writes a block. `included` writes another template. -/
def block (ctx : RenderContext m) (included : Handle TemplateId → RenderM m Unit) :
    Block → RenderM m Unit
  | .text s _ => write s
  | .value path escape fallback => do
    let d ← data
    match d.get path with
    | .null => writeEscaped escape fallback
    | v => writeEscaped escape (some (d.store.text v))
  | .typed path escape format => do
    let d ← data
    writeEscaped escape (format.write? d.store.text (d.get path))
  | .apply function out parameters => call ctx function out parameters
  | .branch kind path main otherwise =>
    branch kind path (blocks ctx included main) (blocks ctx included otherwise)
  | .inclusion h | .resource h => included h
  | .set _ | .comment _ => pure ()
  | .nested bs => blocks ctx included bs

def blocks (ctx : RenderContext m) (included : Handle TemplateId → RenderM m Unit) :
    List Block → RenderM m Unit
  | [] => pure ()
  | b :: rest => do
    block ctx included b
    blocks ctx included rest

end

/-- Writes an included template, inside which there is room for fewer. -/
def included (ctx : RenderContext m) : Nat → Handle TemplateId → RenderM m Unit
  | 0, h => throw (.tooDeep h.key ctx.limit)
  | room + 1, h => do
    match ← (ctx.load h : m _) with
    | .error e => throw (.template e)
    | .ok t => blocks ctx (included ctx room) t.blocks

/-- Writes a template. -/
def template (ctx : RenderContext m) (t : Template) : RenderM m Unit :=
  blocks ctx (included ctx ctx.limit) t.blocks

end Render

end TextTemplate

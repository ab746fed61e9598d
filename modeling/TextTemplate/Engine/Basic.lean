import TextTemplate.Configuration.Basic
import TextTemplate.Function.Builtin
import TextTemplate.Memo
import TextTemplate.Render.Basic
import TextTemplate.Template.Parser

/-! An engine finds, compiles and writes templates. Each is compiled at its first use and
remembered, by the engine and by the handles that led to it; failures are not. -/

namespace TextTemplate

/-- Everything that templates are found, compiled and written with. -/
structure Engine (m : Type → Type) where
  storage : Storage m
  styles : EscapeTable
  functions : Fields Function
  carried : FunctionRef → Option Function
  config : Configuration

/-- A computation that remembers the templates compiled so far. -/
abbrev EngineM (m : Type → Type) := StateT (Memo TemplateId Template) m

namespace Engine

variable {m : Type → Type} [Monad m]

/-- An engine with what is always there. -/
def new (storage : Storage m) (carried : FunctionRef → Option Function) (config : Configuration) :
    Engine m :=
  { storage, styles := .standard, functions := Function.builtins config.pageSize, carried, config }

def register (e : Engine m) (name : String) (escaper : Escaper) : Engine m :=
  { e with styles := e.styles.register name escaper }

def addFunction (e : Engine m) (name : String) (f : Function) : Engine m :=
  { e with functions := e.functions.set name f }

def defaultLocale (e : Engine m) : Locale := Locale.ofText e.config.locale

/-- The folded name of the default style; one that is not registered keeps its name. -/
def defaultEscape (e : Engine m) : String :=
  match e.styles.find? e.config.escape with
  | some style => style.name
  | none => e.config.escape

def sourceId (e : Engine m) (path : String) (l : Locale) : Except TemplateError TemplateId :=
  (SourcePath.clean path e.config.suffix).map fun p =>
    .source p l e.config.bundle e.defaultEscape

def messageId (e : Engine m) (bundle key : String) (l : Locale) : TemplateId :=
  .message bundle key l e.defaultEscape

def parse (e : Engine m) (id : TemplateId) (text : String) : Except TemplateError Template :=
  match Template.ofText ⟨id, e.styles, e.config.suffix⟩ text with
  | .ok t => .ok t
  | .error fault => .error (.parse fault)

/-- Finds the text of a template and compiles it. -/
def make (e : Engine m) (id : TemplateId) : m (Except TemplateError Template) := do
  match ← e.storage.find id.name id.locale with
  | .error fault => pure (.error (.storage id fault))
  | .ok none => pure (.error (.missing id))
  | .ok (some text) => pure ((e.parse id text).map (·.withPlaces id))

/-- The compiled template of an id, made no more than once. -/
def compile (e : Engine m) (id : TemplateId) : EngineM m (Except TemplateError Template) :=
  fun memo => memo.load id (e.make id)

/-- The compiled template that a handle leads to. -/
def follow (e : Engine m) (h : Handle TemplateId) : EngineM m (Except TemplateError Template) :=
  fun memo => memo.follow h (e.make h.key)

/-- The template at a path. -/
def source (e : Engine m) (path : String) (l : Locale) :
    EngineM m (Except TemplateError Template) :=
  match e.sourceId path l with
  | .ok id => e.compile id
  | .error fault => pure (.error fault)

def message (e : Engine m) (bundle key : String) (l : Locale) :
    EngineM m (Except TemplateError Template) := e.compile (e.messageId bundle key l)

/-- Compiles a text that is kept nowhere. What it includes is found as if it were at `path`, through
handles without a place. -/
def compileText (e : Engine m) (path text : String) : Except TemplateError Template :=
  (e.sourceId path e.defaultLocale).bind (e.parse · text)

def context (e : Engine m) : RenderContext (EngineM m) :=
  { load := e.follow, carried := e.carried, functions := e.functions
    limit := e.config.includeLimit }

/-- Writes a template. The state says what was written and stored, even after a failure. -/
def render (e : Engine m) (t : Template) (d : Data) (sink : Sink) :
    EngineM m (Except RenderError Unit × RenderState) :=
  (Render.template e.context t).run.run ⟨d, sink⟩

/-- The whole output of the template at a path. -/
def renderToText (e : Engine m) (path : String) (l : Locale) (d : Data) :
    EngineM m (Except RenderError String) := do
  match ← e.source path l with
  | .error fault => pure (.error (.template fault))
  | .ok t =>
    let (result, after) ← e.render t d .empty
    pure (result.map fun _ => after.sink.text)

end Engine

end TextTemplate

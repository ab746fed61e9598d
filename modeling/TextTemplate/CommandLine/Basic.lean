import TextTemplate.CommandLine.Arguments
import TextTemplate.Configuration.Layer
import TextTemplate.Document.Yaml.Reader
import TextTemplate.Engine.Basic
import TextTemplate.Source.Directory
import TextTemplate.Value.Json

/-! Runs of the program: what is written for the arguments and files that are given. -/

namespace TextTemplate

/-- What a run of the program leaves behind. -/
structure CommandOutcome where
  code : Nat
  out : String
  err : String
  deriving DecidableEq, Repr

namespace CommandOutcome

def success (out : String) : CommandOutcome := ⟨0, out, ""⟩

def failure (message : String) : CommandOutcome := ⟨1, "", "Error: " ++ message ++ "\n"⟩

def misuse (e : UsageError) : CommandOutcome := ⟨2, "", "error: " ++ e.message ++ "\n"⟩

end CommandOutcome

namespace CommandLine

def versionText : String := "stencil 0.1.0\n"

def lines (ls : List String) : String := String.join (ls.map (· ++ "\n"))

def helpText : HelpTopic → String
  | .program => lines [
    "Render and check stencil templates",
    "",
    "Usage: stencil <COMMAND>",
    "",
    "Commands:",
    "  render  Render a stencil to stdout",
    "  check   Compile a stencil and report parse errors",
    "  help    Print this message or the help of the given subcommand(s)",
    "",
    "Options:",
    "  -h, --help     Print help",
    "  -V, --version  Print version"]
  | .command .render => lines [
    "Render a stencil to stdout",
    "",
    "Usage: stencil render [OPTIONS] <path>",
    "",
    "Arguments:",
    "  <path>  Stencil path below the root, e.g. /mail/welcome",
    "",
    "Options:",
    "  -r, --root <root>      Directory holding stencils and message bundles [default: .]",
    "  -l, --locale <locale>  Locale tag (defaults to the configured locale)",
    "  -c, --config <config>  TOML file layered over the built-in defaults",
    "  -v, --verbose          Log debug events to stderr",
    "  -d, --data <data>      JSON or YAML file with the render data",
    "  -h, --help             Print help"]
  | .help => lines [
    "Print this message or the help of the given subcommand(s)",
    "",
    "Usage: stencil help [COMMAND]...",
    "",
    "Arguments:",
    "  [COMMAND]...  Print help for the subcommand(s)"]
  | .command .check => lines [
    "Compile a stencil and report parse errors",
    "",
    "Usage: stencil check [OPTIONS] <path>",
    "",
    "Arguments:",
    "  <path>  Stencil path below the root, e.g. /mail/welcome",
    "",
    "Options:",
    "  -r, --root <root>      Directory holding stencils and message bundles [default: .]",
    "  -l, --locale <locale>  Locale tag (defaults to the configured locale)",
    "  -c, --config <config>  TOML file layered over the built-in defaults",
    "  -v, --verbose          Log debug events to stderr",
    "  -h, --help             Print help"]

/-- The extension of a file's name, if a dot that is not its first character precedes one. -/
def extension? (file : String) : Option String :=
  match (Text.pieces (· = '/') file.toList).reverse.find? (· ≠ []) with
  | none => none
  | some name =>
    match Text.splitFirst? (· = '.') name.reverse with
    | some (_, []) | none => none
    | some (ext, _) => if name = ['.', '.'] then none else some (String.ofList ext.reverse)

def isYaml (file : String) : Bool :=
  (extension? file).any fun ext => ["yaml", "yml"].contains (Text.asciiLower ext)

variable {m : Type → Type} [Monad m]

/-- Data from a file. What is not called YAML is read as JSON. -/
def loadData (read : FileReader m) (file : String) : m (Except String Data) := do
  match ← read.text file with
  | .error fault => pure (.error ("reading " ++ file ++ ": " ++ fault.message))
  | .ok text =>
    match if isYaml file then Yaml.ofText? text else Json.ofText? text with
    | some j => pure (.ok (Data.ofValue .empty (Value.ofJson j)))
    | none => pure (.error ("parsing " ++ file ++ ": malformed document"))

/-- Whether what keeps a file from being read says that there is none. -/
def isNoFile : ReadFault → Bool
  | .notText | .other _ => false
  | _ => true

/-- A path up to its last part that names something, if it has one. -/
def upToName? (file : String) : Option String :=
  let isIdle (part : List Char) : Bool := part = [] ∨ part = ['.']
  match (Text.pieces (· = '/') file.toList).reverse.dropWhile isIdle with
  | [] | ['.', '.'] :: _ => none
  | parts => some (String.ofList (List.intercalate ['/'] parts.reverse))

/-- The configuration file of a name, which may leave its extension out. In what is no text, the
bytes that make up no character are replaced. -/
def configurationLayer (read : FileReader m) (file : String) :
    m (Except ReadFault ConfigurationLayer) := do
  let layer (bytes : ByteArray) : ConfigurationLayer := .document (Text.ofBytes bytes)
  match ← read file with
  | .ok bytes => pure (.ok (layer bytes))
  | .error fault =>
    if !isNoFile fault then pure (.error fault)
    else match upToName? file with
      | none => pure (.ok (.missingFile file true))
      | some name =>
        match ← read (name ++ ".toml") with
        | .ok bytes => pure (.ok (layer bytes))
        | .error fault =>
          if isNoFile fault then pure (.ok (.missingFile file true)) else pure (.error fault)

/-- The configuration of a run. -/
def loadConfiguration (read : FileReader m) (file : Option String) :
    m (Except String Configuration) := do
  let invalid (reason : String) : String := "invalid configuration: " ++ reason
  match file with
  | none => pure (.ok .standard)
  | some file =>
    match ← configurationLayer read file with
    | .error fault => pure (.error (invalid fault.message))
    | .ok layer =>
      pure ((Configuration.ofLayers [layer]).mapError fun e => invalid e.message)

def defaultRoot : String := "."

/-- The engine of a run, and the locale that it asks for. -/
def setUp (read : FileReader m) (o : CommandOptions) : m (Except String (Engine m × Locale)) := do
  match ← loadConfiguration read o.config with
  | .error e => pure (.error e)
  | .ok config =>
    let storage := Directory.storage read (o.root.getD defaultRoot) config.suffix
    let e := Engine.new storage (fun _ => none) config
    pure (.ok (e, (o.locale.map Locale.ofText).getD e.defaultLocale))

def render (read : FileReader m) (o : CommandOptions) (path : String) : m CommandOutcome := do
  match ← setUp read o with
  | .error e => pure (.failure e)
  | .ok (engine, locale) =>
    let data ← match o.data with
      | some file => loadData read file
      | none => pure (.ok .empty)
    match data with
    | .error e => pure (.failure e)
    | .ok data =>
      let (result, _) ← (engine.renderToText path locale data).run .empty
      match result with
      | .ok out => pure (.success out)
      | .error e => pure (.failure e.message)

/-- A fault in the template's own text is shown without the words around it. -/
def check (read : FileReader m) (o : CommandOptions) (path : String) : m CommandOutcome := do
  match ← setUp read o with
  | .error e => pure (.failure e)
  | .ok (engine, locale) =>
    let (result, _) ← (engine.source path locale).run .empty
    match result with
    | .ok t =>
      pure (.success (t.name ++ ": ok (" ++ toString t.blocks.length ++ " blocks)\n"))
    | .error (.parse e) => pure (.failure e.shown)
    | .error e => pure (.failure e.message)

/-- Runs the program on its arguments, with `read` to read files. -/
def run (read : FileReader m) (args : List String) : m CommandOutcome :=
  match CommandRequest.ofArguments args with
  | .error e => pure (.misuse e)
  | .ok (.help topic) => pure (.success (helpText topic))
  | .ok .version => pure (.success versionText)
  | .ok (.run .render o) => render read o (o.path.getD "")
  | .ok (.run .check o) => check read o (o.path.getD "")

end CommandLine

end TextTemplate

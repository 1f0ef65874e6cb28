import ScriptCheck.Endless
import ScriptCheck.Library.Decode
import ScriptCheck.Script.Decode

/-!
# The command line

Two commands. `check` validates a script against a registry and prints its diagnostics, `types`
lists the modules of a registry or the exports of one module. A run is a function of the arguments
and of the files they name; the exit code is 0 on success, 1 if the script has errors, 2 if the
command could not be carried out, 101 if a sum left its word and 134 if the stack was full.
-/

namespace ScriptCheck.CommandLine

/-- A command with its options. Files are given by their paths. -/
inductive Command where
  | check (registry module : String) (source : Option String) (json noColor : Bool)
  | types (registry : String) (module : Option String)
deriving DecidableEq

/-! ## Arguments -/

/-- Options and other arguments of a command, in the order in which they are found. -/
structure Arguments where
  registry : Option String := none
  source : Option String := none
  json : Bool := false
  noColor : Bool := false
  plain : List String := []

/-- The value of an option that is written as `option=value`. -/
def joined? (option arg : String) : Option String :=
  let head := option.toList ++ ['=']
  if head.isPrefixOf arg.toList then some (String.ofList (arg.toList.drop head.length)) else none

/-- Sorts the arguments of a command into options and others. -/
def sortArguments (found : Arguments) : List String → Option Arguments
  | [] => some found
  | arg :: rest =>
    if arg = "--json" then sortArguments { found with json := true } rest
    else if arg = "--no-color" then sortArguments { found with noColor := true } rest
    else if arg = "--registry" then
      match rest with
      | value :: rest => sortArguments { found with registry := some value } rest
      | [] => none
    else if arg = "--source" then
      match rest with
      | value :: rest => sortArguments { found with source := some value } rest
      | [] => none
    else
      match joined? "--registry" arg, joined? "--source" arg with
      | some value, _ => sortArguments { found with registry := some value } rest
      | none, some value => sortArguments { found with source := some value } rest
      | none, none => sortArguments { found with plain := found.plain ++ [arg] } rest

/-- The command that arguments stand for. -/
def parse : List String → Option Command
  | "check" :: rest => do
    let found ← sortArguments {} rest
    match found.plain with
    | [module] => return .check (← found.registry) module found.source found.json found.noColor
    | _ => none
  | "types" :: rest => do
    let found ← sortArguments {} rest
    match found.plain with
    | [] => return .types (← found.registry) none
    | [module] => return .types (← found.registry) (some module)
    | _ => none
  | _ => none

/-! ## Runs -/

/-- Why a command could not be carried out. -/
inductive Failure where
  | registryFile (path reason : String)
  | file (path reason : String)
  | registry
  | script (path : String)
  | unknownModule (name : String)
  | overflow (cause : Overflow)
deriving DecidableEq

/-- The wording of a failure. -/
def Failure.message : Failure → String
  | .registryFile path reason => "failed to read registry " ++ ticked path ++ ": " ++ reason
  | .file path reason => "failed to read " ++ ticked path ++ ": " ++ reason
  | .registry => "malformed registry descriptors"
  | .script path => "malformed module AST " ++ ticked path
  | .unknownModule name => "unknown module " ++ ticked name
  | .overflow cause => cause.message

/-- The exit code of a failure. -/
def Failure.code : Failure → Nat
  | .overflow .sum => 101
  | .overflow .stack => 134
  | _ => 2

/-- What a run leaves behind. -/
structure Outcome where
  code : Nat := 0
  stdout : String := ""
  stderr : String := ""
deriving DecidableEq

/-- The content of a file, or why it cannot be read. -/
abbrev Files := String → Except String String

/-- Texts one after the other, each on a line of its own. -/
def unlines (lines : List String) : String := String.join (lines.map (· ++ "\n"))

/-- Reads the registry. -/
def readRegistry (files : Files) (path : String) : Except Failure Registry := do
  let text ← (files path).mapError (Failure.registryFile path)
  match Registry.read? text with
  | some registry => return registry
  | none => throw .registry

/-- Reads the script. -/
def readScript (files : Files) (path : String) : Except Failure Script := do
  let text ← (files path).mapError (Failure.file path)
  match Script.read? text with
  | some script => return script
  | none => throw (.script path)

/-- Reads the source, if there is one. -/
def readSource (files : Files) : Option String → Except Failure (Option String)
  | none => return none
  | some path => some <$> (files path).mapError (Failure.file path)

/-- The text of all diagnostics. -/
def renderDiagnostics (diagnostics : List Diagnostic) (source : Option String) (fileName : String)
    (json : Bool) : Except Overflow String :=
  match source, json with
  | some text, true => unlines <$> diagnostics.mapM fun d => d.toLine? text fileName
  | some text, false => return String.join (diagnostics.map fun d => d.toExcerpt text)
  | none, true => return unlines (diagnostics.map fun d => d.toJson.render)
  | none, false =>
    unlines <$> diagnostics.mapM fun d => do return fileName ++ ":" ++ (← d.display?)

/-- Validates a script and prints its diagnostics, and without `json` a summary. -/
def check (files : Files) (registry module : String) (source : Option String) (json : Bool) :
    Except Failure Outcome := do
  let library ← readRegistry files registry
  let script ← readScript files module
  let text ← readSource files source
  let report := (← (script.check? library).mapError Failure.overflow).report
  let errors := report.errors.length
  let shown ← (renderDiagnostics report.diagnostics text (source.getD module) json).mapError
    Failure.overflow
  let summary :=
    if json then ""
    else script.name ++ ": " ++ toString errors ++ " error(s), " ++
      toString report.warnings.length ++ " warning(s)\n"
  return { code := if errors = 0 then 0 else 1, stderr := shown ++ summary }

/-- The name of each module with its description. -/
def listModules (r : Registry) : List String :=
  r.modules.sorted.map fun (name, m) =>
    if m.description.isEmpty then name else name ++ "  " ++ m.description

/-- A type with its fields and methods. -/
def listType (s : Symbols) (module : String) (info : Library.TypeInfo) : List String :=
  let own : Ty := .named ⟨module, info.name⟩
  let bound := Registry.selfBindings info.generics
  let generics :=
    if info.generics.isEmpty then "" else "<" ++ ", ".intercalate info.generics ++ ">"
  let field (entry : String × Library.FieldInfo) : String :=
    "    ." ++ entry.1 ++ ": " ++ (entry.2.type.resolve s.registry bound).display ++
      (if entry.2.readOnly then " (read-only)" else "")
  let method (name : String) : Option String :=
    (s.method? own name).map fun m =>
      "    ." ++ name ++ ": " ++ (Ty.function m.signature).display
  ("  type " ++ own.display ++ generics) :: info.fields.entries.map field ++
    info.methods.keys.filterMap method

/-- The exports of a module. -/
def listModule (r : Registry) (name : String) (m : Library.ModuleInfo) : List String :=
  let s : Symbols := { registry := r, moduleName := name }
  ["module " ++ m.name] ++
    (m.constants.map fun c => "  const " ++ c.name ++ ": " ++ (c.type.resolve r {}).display) ++
    (m.functions.map fun f => "  fn " ++ f.name ++ ": " ++ (r.functionType f).display) ++
    m.types.flatMap (listType s name)

/-- Lists the modules of a registry, or the exports of one module. -/
def types (files : Files) (registry : String) (module : Option String) :
    Except Failure Outcome := do
  let library ← readRegistry files registry
  match module with
  | none => return { stdout := unlines (listModules library) }
  | some name =>
    match library.module? name with
    | some m => return { stdout := unlines (listModule library name m) }
    | none => throw (.unknownModule name)

/-- Carries out a command. -/
def run (files : Files) (command : Command) : Outcome :=
  let result := match command with
    | .check registry module source json _ => check files registry module source json
    | .types registry module => types files registry module
  match result with
  | .ok outcome => outcome
  | .error failure => { code := failure.code, stderr := "error: " ++ failure.message ++ "\n" }

/-- The files that a command reads. -/
def Command.files : Command → List String
  | .check registry module source _ _ => registry :: module :: source.toList
  | .types registry _ => [registry]

end ScriptCheck.CommandLine

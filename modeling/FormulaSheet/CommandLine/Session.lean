import FormulaSheet.CommandLine.FileFault
import FormulaSheet.CommandLine.Request
import FormulaSheet.Compilation

/-!
What the command does. It is written over a `Host`, which is the only way it reaches files and
streams, so that it can run in the operating system or in a directory held in memory.
-/

namespace FormulaSheet.CommandLine

/-- Files and streams. -/
structure Host (m : Type → Type) where
  hasFile : String → m Bool
  readFile : String → m (Except FileFault String)
  writeFile : String → String → m (Except FileFault Unit)
  print : String → m Unit
  printError : String → m Unit
  /-- Runs a program on the lines of standard input and prints its output. The program is given as
  what it makes of the lines. -/
  converse : (List String → Target.Outcome) → m Target.Outcome

/-- Why the command fails. -/
inductive Failure where
  | file (fault : FileFault)
  | settings
  | sheet (fault : Fault)

def Failure.message : Failure → String
  | .file fault => fault.message
  | .settings => "invalid configuration: unexpected value"
  | .sheet fault => fault.message

/-- The settings file that is read unless another one is named. -/
def defaultConfig : String := "appsettings.json"

def versionText : String := "wordmath 0.1.0\n"

def helpText : String :=
  "Transpiles MathML formulas into C# or Visual Basic programs\n\n" ++
  "Usage: wordmath [OPTIONS] <input>\n\n" ++
  "Arguments:\n" ++
  "  <input>  MathML document whose root holds one <math> element per statement\n\n" ++
  "Options:\n" ++
  "  -c, --config <config>      Path to the JSON configuration\n" ++
  "  -l, --language <language>  Target language: csharp or vb\n" ++
  "      --ignore-errors        Skip statements that fail to parse\n" ++
  "      --run                  Run the program instead of printing its source\n" ++
  "  -o, --output <output>      Write the generated source to this file\n" ++
  "  -h, --help                 Print help\n" ++
  "  -V, --version              Print version\n"

def usageText : String := "error: wrong usage, see --help\n"

section

variable {m : Type → Type} [Monad m] (host : Host m)

/-- The settings in a file. -/
def readSettings (path : String) : ExceptT Failure m Settings := do
  match ← host.readFile path with
  | .error fault => throw (.file fault)
  | .ok text =>
    match Settings.ofText? text with
    | some settings => return settings
    | none => throw .settings

/-- `load_config`: the settings that the options ask for. -/
def settingsFor (options : Options) : ExceptT Failure m Settings := do
  let settings ← match options.config with
    | some path => readSettings host path
    | none => if ← host.hasFile defaultConfig then readSettings host defaultConfig else pure {}
  return { settings with
    language := options.language.getD settings.language
    ignoreErrors := options.ignoreErrors || settings.ignoreErrors }

/-- `run`: compiles the input and runs the program or writes its source. The result tells whether
all went well. -/
def compileAndServe (options : Options) : ExceptT Failure m Bool := do
  let settings ← settingsFor host options
  match ← host.readFile options.input with
  | .error fault => throw (.file fault)
  | .ok markup =>
    match compile settings markup with
    | .error fault => throw (.sheet fault)
    | .ok compilation =>
      for fault in compilation.skipped do
        host.printError ("skipped: " ++ fault.message ++ "\n")
      if options.run then
        match (← host.converse compilation.program.run).fault with
        | none => return true
        | some fault =>
          host.printError ("runtime error: " ++ fault.message ++ "\n")
          return false
      else
        let source := settings.language.source compilation.program
        match options.output with
        | none =>
          host.print source
          return true
        | some path =>
          match ← host.writeFile path source with
          | .ok _ => return true
          | .error fault => throw (.file fault)

/-- `main`: runs the command and gives its exit code: 0 if all went well, 1 if not, and 2 for
arguments that are not understood. -/
def execute (arguments : List String) : m Nat := do
  match Request.ofArguments arguments with
  | none =>
    host.printError usageText
    return 2
  | some .version =>
    host.print versionText
    return 0
  | some .help =>
    host.print helpText
    return 0
  | some (.compile options) =>
    match ← (compileAndServe host options).run with
    | .ok true => return 0
    | .ok false => return 1
    | .error failure =>
      host.printError ("error: " ++ failure.message ++ "\n")
      return 1

end

end FormulaSheet.CommandLine

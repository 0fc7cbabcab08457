import FormulaSheet.Target.Language

/-!
What a command line asks for. Options take their value from the same argument, behind `=` or
directly behind a single letter, or from the next argument; no option may stand twice, and `--`
ends the options.
-/

namespace FormulaSheet.CommandLine

/-- The options of a compilation. -/
structure Options where
  input : String
  config : Option String := none
  language : Option Target.Language := none
  ignoreErrors : Bool := false
  run : Bool := false
  output : Option String := none
  deriving DecidableEq, Repr

/-- What is asked for. -/
inductive Request where
  | compile (options : Options)
  | version
  | help
  deriving DecidableEq, Repr

/-- The options read so far. -/
structure Draft where
  input : Option String := none
  config : Option String := none
  language : Option Target.Language := none
  ignoreErrors : Bool := false
  run : Bool := false
  output : Option String := none

/-- The options that take a value. -/
inductive Valued where
  | config
  | language
  | output

def languageOf? : String → Option Target.Language
  | "csharp" => some .csharp
  | "vb" => some .visualBasic
  | _ => none

namespace Draft

/-- Sets what has no value yet. -/
def setOnce {α : Type} (old : Option α) (value : α) : Option (Option α) :=
  match old with
  | none => some (some value)
  | some _ => none

def setValued (draft : Draft) (option : Valued) (value : String) : Option Draft :=
  match option with
  | .config => (setOnce draft.config value).map fun config => { draft with config }
  | .output => (setOnce draft.output value).map fun output => { draft with output }
  | .language =>
    (languageOf? value).bind fun language =>
      (setOnce draft.language language).map fun language => { draft with language }

def setInput (draft : Draft) (value : String) : Option Draft :=
  (setOnce draft.input value).map fun input => { draft with input }

def setIgnoreErrors (draft : Draft) : Option Draft :=
  if draft.ignoreErrors then none else some { draft with ignoreErrors := true }

def setRun (draft : Draft) : Option Draft :=
  if draft.run then none else some { draft with run := true }

/-- The request, once all arguments are read; the input must be among them. -/
def finish (draft : Draft) : Option Request :=
  draft.input.map fun input =>
    .compile { draft with input }

/-- Takes all arguments as inputs. -/
def inputs (draft : Draft) : List String → Option Request
  | [] => draft.finish
  | argument :: rest => (draft.setInput argument).bind (·.inputs rest)

end Draft

/-- What a single argument is. -/
inductive Argument where
  /-- The mark behind which all arguments are inputs. -/
  | endOfOptions
  | valued (option : Valued) (value : Option String)
  | ignoreErrors
  | run
  | version
  | help
  | plain (text : String)
  | unknown

/-- The value behind the letter of a short option; `=` may stand in front of it. -/
def attached? : List Char → Option String
  | [] => none
  | '=' :: value => some (String.ofList value)
  | value => some (String.ofList value)

/-- Recognises an argument. A single `-` is an input like any other. -/
def Argument.of (text : String) : Argument :=
  match text.toList with
  | ['-', '-'] => .endOfOptions
  | '-' :: '-' :: long =>
    let name := String.ofList (long.takeWhile (· ≠ '='))
    let value := match long.dropWhile (· ≠ '=') with
      | [] => none
      | _ :: value => some (String.ofList value)
    match name, value with
    | "config", value => .valued .config value
    | "language", value => .valued .language value
    | "output", value => .valued .output value
    | "ignore-errors", none => .ignoreErrors
    | "run", none => .run
    | "version", none => .version
    | "help", none => .help
    | _, _ => .unknown
  | '-' :: 'c' :: value => .valued .config (attached? value)
  | '-' :: 'l' :: value => .valued .language (attached? value)
  | '-' :: 'o' :: value => .valued .output (attached? value)
  | '-' :: 'V' :: _ => .version
  | '-' :: 'h' :: _ => .help
  | '-' :: _ :: _ => .unknown
  | _ => .plain text

/-- Reads arguments from left to right. Nothing is given for arguments that are not understood. -/
def Request.read (draft : Draft) : List String → Option Request
  | [] => draft.finish
  | argument :: rest =>
    match Argument.of argument with
    | .endOfOptions => draft.inputs rest
    | .ignoreErrors => draft.setIgnoreErrors.bind (Request.read · rest)
    | .run => draft.setRun.bind (Request.read · rest)
    | .version => some .version
    | .help => some .help
    | .plain text => (draft.setInput text).bind (Request.read · rest)
    | .unknown => none
    | .valued option (some value) => (draft.setValued option value).bind (Request.read · rest)
    | .valued option none =>
      match rest with
      | [] => none
      | next :: rest =>
        match Argument.of next with
        | .plain value => (draft.setValued option value).bind (Request.read · rest)
        | _ => none

/-- What the arguments of a command line ask for. -/
def Request.ofArguments (arguments : List String) : Option Request := Request.read {} arguments

end FormulaSheet.CommandLine

import FormulaSheet.CommandLine.Session

/-!
The command as a program of the operating system.
-/

namespace FormulaSheet.CommandLine

/-- The fault with a given number. Some operations give the number with a minus sign. -/
def FileFault.ofCode (code : UInt32) : FileFault :=
  let size := if code.toNat < Nat.pow 2 31 then code.toNat else Nat.pow 2 32 - code.toNat
  match size with
  | 2 => .notFound
  | 13 => ⟨13, "Permission denied"⟩
  | 20 => .notADirectory
  | 21 => .isADirectory
  | 28 => ⟨28, "No space left on device"⟩
  | 30 => ⟨30, "Read-only file system"⟩
  | 36 => .nameTooLong
  | 40 => ⟨40, "Too many levels of symbolic links"⟩
  | size => ⟨size, "Input/output error"⟩

/-- The fault behind an error of the operating system. -/
def FileFault.ofError : IO.Error → FileFault
  | .noFileOrDirectory _ code _ | .inappropriateType _ code _ | .permissionDenied _ code _
  | .interrupted _ code _ | .invalidArgument _ code _ | .resourceExhausted _ code _
  | .alreadyExists _ code _ | .noSuchThing _ code _ | .otherError code _ => .ofCode code
  | _ => .ofCode 5

/-- Performs a file operation and catches its error. -/
def attempt {α : Type} (operation : IO α) : IO (Except FileFault α) := do
  match ← operation.toBaseIO with
  | .ok value => return .ok value
  | .error error => return .error (.ofError error)

/-- The next line of a stream without its line end, or nothing at the end of the stream. -/
def readLine? (stream : IO.FS.Stream) : IO (Option String) := do
  let line ← stream.getLine
  if line.isEmpty then return none
  else
    let ends := fun c => c == '\n' || c == '\r'
    return some (String.ofList (line.toList.reverse.dropWhile ends).reverse)

/-- Runs a program on more and more lines of standard input. What it prints never changes when
lines are added, so after each line only the new part is printed. -/
partial def talk (program : List String → Target.Outcome) (lines : List String) (printed : Nat) :
    IO Target.Outcome := do
  let outcome := program lines
  let output ← IO.getStdout
  output.putStr (String.ofList (outcome.output.toList.drop printed))
  output.flush
  match outcome.fault with
  | some (.noInput _) =>
    match ← readLine? (← IO.getStdin) with
    | some line => talk program (lines ++ [line]) outcome.output.length
    | none => return outcome
  | _ => return outcome

/-- The operating system as a host. -/
def systemHost : Host IO where
  hasFile path := do
    match ← attempt (IO.FS.readFile path) with
    | .ok _ => return true
    | .error fault => return fault != .notFound
  readFile path := attempt (IO.FS.readFile path)
  writeFile path text := attempt (IO.FS.writeFile path text)
  print text := do (← IO.getStdout).putStr text
  printError text := do (← IO.getStderr).putStr text
  converse program := talk program [] 0

end FormulaSheet.CommandLine

def main (arguments : List String) : IO UInt32 := do
  let code ← FormulaSheet.CommandLine.execute FormulaSheet.CommandLine.systemHost arguments
  return UInt32.ofNat code

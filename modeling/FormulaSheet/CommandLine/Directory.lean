import FormulaSheet.Bindings
import FormulaSheet.CommandLine.Path
import FormulaSheet.CommandLine.Session

/-!
A directory of text files held in memory, as a host for the command. The directories above it and
the root exist and hold nothing but what the command writes there.
-/

namespace FormulaSheet.CommandLine

/-- The state of a run of the command in a directory of its own. -/
structure Directory where
  /-- Files by the spots where they lie. -/
  files : List (Spot × String) := []
  /-- The lines of standard input. -/
  input : List String := []
  output : String := ""
  errors : String := ""

/-- What lies at the end of a path. -/
inductive Place where
  | file (text : String)
  | directory
  | vacant

namespace Directory

/-- A directory with files by their paths. -/
def ofFiles (files : Bindings String) (input : List String) : Directory where
  files := files.entries.map fun (path, text) => ((Path.ofText path).spot, text)
  input := input

def fileAt? (directory : Directory) (spot : Spot) : Option String := directory.files.lookup spot

/-- The directory with a file put at a spot, in place of the one there. -/
def putFile (directory : Directory) (spot : Spot) (text : String) : Directory :=
  { directory with files := (spot, text) :: directory.files.filter (·.1 ≠ spot) }

/-- Whether a spot is a directory: one that holds files, or the start of a path. -/
def isDirectory (directory : Directory) (spot : Spot) : Bool :=
  spot.names.isEmpty || directory.files.any (spot.encloses ·.1)

/-- What lies one step on from a directory. -/
def placeAfter (directory : Directory) (spot : Spot) : Step → Except FileFault Place
  | .stay | .parent => .ok .directory
  | .name text =>
    if Path.nameLimit < text.utf8ByteSize then .error .nameTooLong
    else
      let next := spot.child text
      match directory.fileAt? next with
      | some content => .ok (.file content)
      | none => .ok (if directory.isDirectory next then .directory else .vacant)

/-- Goes from directory to directory. -/
def walk (directory : Directory) (spot : Spot) : List Step → Except FileFault Spot
  | [] => .ok spot
  | step :: rest => do
    match ← directory.placeAfter spot step with
    | .directory => directory.walk (spot.move step) rest
    | .file _ => throw .notADirectory
    | .vacant => throw .notFound

/-- What a path leads to. The last step may lead anywhere, those before it only to directories. -/
def place (directory : Directory) (path : Path) : Except FileFault Place := do
  let spot ← directory.walk path.start path.steps.dropLast
  match path.steps.getLast? with
  | none => return .directory
  | some step => directory.placeAfter spot step

def read (directory : Directory) (text : String) : Except FileFault String := do
  let path ← Path.read text
  match ← directory.place path with
  | .file content => if path.slashed then throw .notADirectory else return content
  | .directory => throw .isADirectory
  | .vacant => throw .notFound

/-- Whether a path can only be a directory that is to be made: a name with a slash behind it. -/
def asksForDirectory (path : Path) : Bool :=
  match path.steps.getLast? with
  | some (.name _) => path.slashed
  | _ => false

/-- Writes a file. Directories are not made on the way, and never at the end. -/
def write (directory : Directory) (text content : String) : Except FileFault Directory := do
  let path ← Path.read text
  let _ ← directory.walk path.start path.steps.dropLast
  if asksForDirectory path then throw .isADirectory
  match ← directory.place path with
  | .file _ | .vacant => return directory.putFile path.spot content
  | .directory => throw .isADirectory

/-- The lines of a stream without the line ends; text behind the last line end is a line too. -/
def streamLines (text : String) : List String :=
  let pieces := text.splitOn "\n"
  let lines := if pieces.getLast? = some "" then pieces.dropLast else pieces
  lines.map fun line => String.ofList (line.toList.reverse.dropWhile (· = '\r')).reverse

/-- The directory as a host. -/
def host : Host (StateM Directory) where
  hasFile path := return match (← get).read path with
    | .ok _ => true
    | .error fault => fault = .isADirectory
  readFile path := return (← get).read path
  writeFile path text := do
    match (← get).write path text with
    | .ok directory =>
      set directory
      return .ok ()
    | .error fault => return .error fault
  print text := modify fun directory => { directory with output := directory.output ++ text }
  printError text := modify fun directory => { directory with errors := directory.errors ++ text }
  converse program := do
    let outcome := program (← get).input
    modify fun directory => { directory with output := directory.output ++ outcome.output }
    return outcome

end Directory

end FormulaSheet.CommandLine

import FormulaSheet.CommandLine.FileFault

/-!
Paths of files. A path is taken apart into steps from a start; which steps can be taken depends on
the files that exist. A `Spot` is what steps lead to, so two paths to one place have one spot.
-/

namespace FormulaSheet.CommandLine

/-- One step along a path. -/
inductive Step where
  | stay
  | parent
  | name (text : String)
  deriving DecidableEq, Repr

/-- The steps that are written between slashes. Repeated slashes add none. -/
def Step.ofPieces : List String → List Step
  | [] => []
  | "" :: rest => Step.ofPieces rest
  | "." :: rest => .stay :: Step.ofPieces rest
  | ".." :: rest => .parent :: Step.ofPieces rest
  | text :: rest => .name text :: Step.ofPieces rest

/-- Where names are counted from. -/
inductive Base where
  | root
  /-- The working directory, or the one so many levels above it. -/
  | above (levels : Nat)
  deriving DecidableEq, Repr

/-- A place in the file system. -/
structure Spot where
  base : Base := .above 0
  names : List String := []
  deriving DecidableEq, Repr

namespace Spot

def child (spot : Spot) (name : String) : Spot := { spot with names := spot.names ++ [name] }

/-- The spot one level up. The root is above itself. -/
def parent (spot : Spot) : Spot :=
  match spot.names, spot.base with
  | [], .root => spot
  | [], .above levels => ⟨.above (levels + 1), []⟩
  | names, base => ⟨base, names.dropLast⟩

def move (spot : Spot) : Step → Spot
  | .stay => spot
  | .parent => spot.parent
  | .name text => spot.child text

/-- Whether `outer` lies on the way to `inner`. -/
def encloses (outer inner : Spot) : Bool :=
  outer.base = inner.base && outer.names.length < inner.names.length &&
    inner.names.take outer.names.length = outer.names

end Spot

/-- A path in its parts. -/
structure Path where
  start : Spot
  steps : List Step
  /-- Whether a slash ends the path, which then asks for a directory. -/
  slashed : Bool

namespace Path

/-- The bytes from which on a path is too long. -/
def sizeLimit : Nat := 4096

/-- The bytes that the name of a file may have. -/
def nameLimit : Nat := 255

def ofText (text : String) : Path where
  start := if text.startsWith "/" then ⟨.root, []⟩ else {}
  steps := Step.ofPieces (text.splitOn "/")
  slashed := text.endsWith "/"

/-- The path in a text, unless the text is empty or too long. -/
def read (text : String) : Except FileFault Path :=
  if text.isEmpty then .error .notFound
  else if sizeLimit ≤ text.utf8ByteSize then .error .nameTooLong
  else .ok (ofText text)

/-- The spot that a path names, whether its steps can be taken or not. -/
def spot (path : Path) : Spot := path.steps.foldl Spot.move path.start

end Path

end FormulaSheet.CommandLine

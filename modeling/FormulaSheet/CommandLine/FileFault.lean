/-!
Faults of files, as the operating system numbers and words them.
-/

namespace FormulaSheet.CommandLine

/-- Why a file cannot be used. -/
structure FileFault where
  code : Nat
  description : String
  deriving DecidableEq, Repr

namespace FileFault

def notFound : FileFault := ⟨2, "No such file or directory"⟩
def notADirectory : FileFault := ⟨20, "Not a directory"⟩
def isADirectory : FileFault := ⟨21, "Is a directory"⟩
def nameTooLong : FileFault := ⟨36, "File name too long"⟩

def message (fault : FileFault) : String := s!"{fault.description} (os error {fault.code})"

end FileFault

end FormulaSheet.CommandLine

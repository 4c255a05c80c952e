import CommandWrap.Path
import CommandWrap.Text.Utf8

/-! Why a file system refuses an operation, and how that is said. -/
namespace CommandWrap

inductive FileProblem
  | notFound
  | occupied
  | notDirectory
  | isDirectory
  | nameTooLong
  | tooManyLinks
deriving DecidableEq

/-- Why an open file takes no more bytes. -/
inductive WriteProblem
  | inputOutput
  | tooLarge
  | noSpace
  | quotaExceeded
deriving DecidableEq

inductive FileError
  | refused (problem : FileProblem) (path : Path)
  | unwritten (problem : WriteProblem)
  | nullByte
  | unnameable (error : Utf8.EncodeError)
  /-- More directories are missing than can be made in one go. -/
  | tooDeep
deriving DecidableEq

namespace FileProblem

def number : FileProblem → Nat
  | notFound => 2
  | occupied => 17
  | notDirectory => 20
  | isDirectory => 21
  | nameTooLong => 36
  | tooManyLinks => 40

def wording : FileProblem → Text
  | notFound => "No such file or directory"
  | occupied => "File exists"
  | notDirectory => "Not a directory"
  | isDirectory => "Is a directory"
  | nameTooLong => "File name too long"
  | tooManyLinks => "Too many levels of symbolic links"

end FileProblem

namespace WriteProblem

def number : WriteProblem → Nat
  | inputOutput => 5
  | tooLarge => 27
  | noSpace => 28
  | quotaExceeded => 122

def wording : WriteProblem → Text
  | inputOutput => "Input/output error"
  | tooLarge => "File too large"
  | noSpace => "No space left on device"
  | quotaExceeded => "Disk quota exceeded"

end WriteProblem

def FileError.message : FileError → Text
  | .refused problem path =>
    "[Errno " ++ Text.ofNat problem.number ++ "] " ++ problem.wording ++ ": " ++ path.toText.quoted
  | .unwritten problem => "[Errno " ++ Text.ofNat problem.number ++ "] " ++ problem.wording
  | .nullByte => "embedded null byte"
  | .unnameable error => error.message
  | .tooDeep => "maximum recursion depth exceeded while calling a Python object"

end CommandWrap

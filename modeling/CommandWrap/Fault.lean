import CommandWrap.FileSystem.Basic
import CommandWrap.Settings.Parser

/-! What can go wrong in a run, and how that is said. -/
namespace CommandWrap

inductive Fault
  | file (error : FileError)
  | undecodable (error : Utf8.DecodeError)
  | json (error : Json.ParseError)
  | settings (error : Settings.ParseError)
  | home (error : HomeError)
  /-- The name of a tool has to be a scalar. -/
  | toolNameNested (container : Json.Container)
  /-- Only one of two times has an offset. -/
  | timesDiffer
  /-- Standard output has no bytes for a part of a text. -/
  | unprintable (error : Utf8.EncodeError)

namespace Fault

def message : Fault → Text
  | file error => error.message
  | undecodable error => error.message
  | json error => error.message
  | settings error => error.message
  | home error => error.message
  | toolNameNested .array => "unhashable type: 'list'"
  | toolNameNested .object => "unhashable type: 'dict'"
  | timesDiffer => "can't subtract offset-naive and offset-aware datetimes"
  | unprintable error => error.message

/-- The file system refused an operation. -/
def isRefusal : Fault → Bool
  | file (.refused ..) | file (.unwritten _) => true
  | _ => false

/-- The contents of a settings file are at fault, or the file cannot be read. -/
def isBadSettings : Fault → Bool
  | file .tooDeep => false
  | file _ | undecodable _ => true
  | settings (.json (.nestedTooDeep _)) | settings (.home .unknown) => false
  | settings _ => true
  | _ => false

end Fault
end CommandWrap

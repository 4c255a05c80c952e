import CommandWrap.Fault
import CommandWrap.Text.Lines

/-! Files of text: UTF-8, with any of the usual line ends. -/
namespace CommandWrap.FileSystem

/-- The text in a file, its line ends unified. -/
def readText (fs : FileSystem) (p : Path) : Except Fault Text := do
  let bytes ← (fs.read p).mapError Fault.file
  let text ← (Utf8.decode bytes).mapError Fault.undecodable
  return text.unifyLineEnds

end CommandWrap.FileSystem

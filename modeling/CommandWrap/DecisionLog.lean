import CommandWrap.Hook
import CommandWrap.Json.Printer
import CommandWrap.Time.Iso

/-! Lines of the decision log. A line shows whole commands only if the log is a full one. -/
namespace CommandWrap.DecisionLog

def member (name : Text) (value : Option Text) : List (Text × Json) :=
  value.toList.map fun t => (name, .string t)

def members (full : Bool) (time : Stamp) (notice : Notice) : Entries Json :=
  member "cmd" (some notice.name) ++ member "reason" notice.reason ++
    member "pattern" notice.pattern ++
    (if full then member "command" notice.command ++ member "rewritten" notice.rewritten else []) ++
    member "event" (some notice.event) ++ member "level" (some "info") ++
    member "ts" (some time.zuluText)

/-- The line without its line feed. -/
def line (full : Bool) (time : Stamp) (notice : Notice) : Text :=
  (Json.object (members full time notice)).render

end CommandWrap.DecisionLog

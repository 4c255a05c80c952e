import CommandWrap.Tally
import CommandWrap.Time.Stamp

/-! The report on a tally: how long ago it was started, and its counts, the greatest first. -/
namespace CommandWrap.Report

def duration (minutes : Nat) : Text :=
  if minutes < 60 then Text.ofNat minutes ++ "m"
  else Text.ofNat (minutes / 60) ++ "h " ++ Text.ofNat (minutes % 60) ++ "m"

/-- Greatest count first; equal counts keep their order. -/
def ranked (counts : Entries Nat) : Entries Nat := counts.mergeSort fun a b => b.2 ≤ a.2

def width (counts : Entries Nat) : Nat :=
  counts.foldl (fun w entry => max w entry.1.length) 0

def row (width : Nat) : Text × Nat → Text
  | (key, count) =>
    "  " ++ Text.padRight width key ++ "  - " ++ Text.ofNat count ++
      (if count = 1 then " rewrite" else " rewrites")

def render (minutes : Nat) (tally : Tally) : Text :=
  let header := "RTK Session Stats (" ++ duration minutes ++ ")"
  if tally.total = 0 then Text.lines [header, "No commands rewritten yet."]
  else
    let counts := ranked tally.counts
    Text.lines ([header, "Total rewrites: " ++ Text.ofNat tally.total, []] ++
      counts.map (row (width counts)))

/-- `none` if only one of the two times has an offset. -/
def ofTally? (started now : Stamp) (tally : Tally) : Option Text :=
  (started.elapsed? now).map fun micros => render (wholeMinutes micros) tally

end CommandWrap.Report

import CommandWrap.FileSystem.TextFile
import CommandWrap.Json.Printer
import CommandWrap.Tally
import CommandWrap.Time.Iso

/-!
Sessions: each has a file with a line for every rewrite, in order. Lines are added and never changed,
so the tally of a session can be read back from its file.
-/
namespace CommandWrap

/-- The rewrites of a session and the time of the first. -/
structure Account where
  startedAt : Stamp
  tally : Tally

namespace Session

/-! ### Names -/

def isSafe (c : CodePoint) : Bool :=
  (0x41 ≤ c.val && c.val ≤ 0x5A) || (0x61 ≤ c.val && c.val ≤ 0x7A) || c.isDigit || c = '_' || c = '-'

/-- The identifier as part of a file name. -/
def safeId (id : Text) : Text :=
  if id = [] then "unknown" else id.map fun c => if isSafe c then c else CodePoint.ofChar '_'

def suffix : Text := ".jsonl"

def path (directory : Path) (id : Text) : Path := directory.child (safeId id ++ suffix)

/-! ### Lines -/

/-- One rewrite as a line, without the line feed. -/
def line (time : Stamp) (key : Text) : Text :=
  (Json.object [("ts", .string time.isoText), ("key", .string key)]).render

/-- The rewrite that an object stands for. A missing offset counts as universal time. -/
def entryOf? (members : Entries Json) : Option (Stamp × Text) :=
  match members.get? "ts", members.get? "key" with
  | some (.string time), some (.string key) =>
    if key.isBlank then none else (Stamp.parse? time).map fun stamp => (stamp.assumeUtc, key)
  | _, _ => none

/-- The rewrite on a line; lines of another form are none. -/
def readLine (limit : Json.Limit) (t : Text) : Except Json.ParseError (Option (Stamp × Text)) :=
  match Json.parse limit t with
  | .ok (.object members) => .ok (entryOf? members)
  | .ok _ => .ok none
  | .error (.malformed ..) => .ok none
  | .error error => .error error

def readLines (limit : Json.Limit) : List Text → Except Json.ParseError (List (Stamp × Text))
  | [] => .ok []
  | t :: rest => do
    let entry ← readLine limit t
    return entry.toList ++ (← readLines limit rest)

/-- A session without rewrites starts now. -/
def accountOf (now : Stamp) (entries : List (Stamp × Text)) : Account :=
  ⟨(entries.head?.map (·.1)).getD now, Tally.ofCommands (entries.map (·.2))⟩

/-! ### Files -/

/-- Adds a rewrite; a blank command is none. -/
def record (now : Int) (depth : Nat) (directory : Path) (id : Text) (time : Stamp) (command : Text)
    (files : FileSystem) : FileSystem × Except FileError Unit :=
  if Tally.key command = [] then (files, .ok ())
  else
    let bytes := Utf8.encode (line time (Tally.key command) ++ "\n")
    files.record now depth (path directory id) bytes

/-- The account of a session. One without a file has no rewrites. -/
def load (limit : Json.Limit) (now : Stamp) (directory : Path) (id : Text) (files : FileSystem) :
    Except Fault Account := do
  if ← (files.isFile (path directory id)).mapError Fault.file then
    let text ← files.readText (path directory id)
    return accountOf now (← (readLines limit text.splitLines).mapError Fault.json)
  else return accountOf now []

/-- Later, or as late and under a greater name. -/
def isNewer (a b : Int × Text) : Bool := b.1 < a.1 || (a.1 = b.1 && Text.lt b.2 a.2)

def newest : List (Int × Text) → Option (Int × Text)
  | [] => none
  | first :: rest => some (rest.foldl (fun best c => if isNewer c best then c else best) first)

/-- When the session files of a directory were changed. Links to nowhere are passed over. -/
def candidates (directory : Path) (files : FileSystem) : List Text → Except FileError (List (Int × Text))
  | [] => .ok []
  | name :: rest =>
    match files.modified (directory.child name) with
    | .ok time => (candidates directory files rest).map ((time, name) :: ·)
    | .error (.refused .notFound _) => candidates directory files rest
    | .error e => .error e

/-- The identifier of the session that was written last. -/
def latest (directory : Path) (files : FileSystem) : Except FileError (Option Text) := do
  if ← files.isDirectory directory then
    let place ← files.locate true directory
    let names := (files.namesIn place).filter fun name => suffix.isSuffixOf name
    let found := newest (← candidates directory files names)
    return found.map fun (_, name) => safeId (Path.stemOf name)
  else return none

end Session
end CommandWrap

import CommandWrap.FileSystem.Error

/-!
File systems as values: what stands at each place, a place being the names from the root down. Paths
follow links. An operation that fails half way leaves what it did before, so it returns the file system
with the error.
-/
namespace CommandWrap

abbrev Place := List Text

inductive Content
  | file (bytes : Bytes)
  | directory
  | link (target : Text)
deriving DecidableEq

def Content.isFile : Content → Bool
  | .file _ => true
  | _ => false

structure Item where
  content : Content
  /-- When it was last changed, in microseconds of universal time. -/
  modified : Int
deriving DecidableEq

structure FileSystem where
  items : List (Place × Item) := []
  /-- Where a path without a slash in front starts. -/
  current : Place := []
  /-- What becomes of bytes for the file at a place, as things stand: all of them are taken, or so many,
  and why not more. -/
  refusal? : List (Place × Item) → Place → Bytes → Option (Nat × WriteProblem) := fun _ _ _ => none

namespace FileSystem

/-! ### Names -/

/-- The length of a name in bytes. -/
def byteLength (name : Text) : Nat :=
  name.foldl (fun n c => n + if Utf8.isStrayByte c then 1 else (Utf8.encodeCodePoint c).length) 0

def maxNameLength : Nat := 255

def maxPathLength : Nat := 4095

/-- Refuses a path that names nothing on any file system. -/
def checkPath (p : Path) : Except FileError Unit :=
  match Utf8.encodeError? Utf8.isStrayByte 0 p.toText with
  | some error => .error (.unnameable error)
  | none =>
    if p.toText.any fun c => c.val = 0 then .error .nullByte
    else if maxPathLength < byteLength p.toText then .error (.refused .nameTooLong p)
    else .ok ()

/-! ### Places -/

def item? (fs : FileSystem) (place : Place) : Option Item := fs.items.lookup place

/-- The root is always there. -/
def content? (fs : FileSystem) (place : Place) : Option Content :=
  if place = [] then some .directory else (fs.item? place).map (·.content)

/-- Names in a directory. -/
def namesIn (fs : FileSystem) (place : Place) : List Text :=
  (fs.items.filter fun (p, _) => p.dropLast = place && p ≠ []).map fun (p, _) => p.getLastD []

/-- The place that the names in `rest` lead to from `here`. Its last name may stand for nothing yet. A
link at the end is followed if `through` says so. -/
def follow (fs : FileSystem) (through : Bool) (links : Nat) (here : Place) (rest : List Text) :
    Except FileProblem Place :=
  match rest with
  | [] => .ok here
  | name :: rest =>
    match fs.content? here with
    | none => .error .notFound
    | some .directory =>
      if name = ".." then follow fs through links here.dropLast rest
      else if maxNameLength < byteLength name then .error .nameTooLong
      else
        let there := here ++ [name]
        match fs.content? there with
        | none => if rest = [] then .ok there else .error .notFound
        | some (.link target) =>
          if rest = [] ∧ !through then .ok there
          else match links with
            | 0 => .error .tooManyLinks
            | links + 1 =>
              let start := if target.head? = some '/' then [] else here
              follow fs through links start (Path.partsOf target ++ rest)
        | some _ => follow fs through links there rest
    | some _ => .error .notDirectory
termination_by (links, rest.length)

/-- So many links are followed in one path. -/
def maxLinks : Nat := 40

def start (fs : FileSystem) (p : Path) : Place := if p.slashes = 0 then fs.current else []

/-- Where a path leads. -/
def locate (fs : FileSystem) (through : Bool) (p : Path) : Except FileError Place :=
  (checkPath p).bind fun _ =>
    (fs.follow through maxLinks (fs.start p) p.parts).mapError fun problem => .refused problem p

/-! ### Looking -/

/-- What stands where a path leads. -/
def contentAt (fs : FileSystem) (p : Path) : Except FileError Content :=
  (fs.locate true p).bind fun place =>
    match fs.content? place with
    | some content => .ok content
    | none => .error (.refused .notFound p)

/-- Something in the class stands where the path leads. A path that leads nowhere is no error here,
unless a name in it is too long. -/
def isAt (fs : FileSystem) (class? : Content → Bool) (p : Path) : Except FileError Bool :=
  match fs.contentAt p with
  | .ok content => .ok (class? content)
  | .error (.refused .nameTooLong p) => .error (.refused .nameTooLong p)
  | .error _ => .ok false

def isFile (fs : FileSystem) (p : Path) : Except FileError Bool := fs.isAt Content.isFile p

def isDirectory (fs : FileSystem) (p : Path) : Except FileError Bool := fs.isAt (· = .directory) p

def read (fs : FileSystem) (p : Path) : Except FileError Bytes :=
  (fs.contentAt p).bind fun content =>
    match content with
    | .file bytes => .ok bytes
    | .directory => .error (.refused .isDirectory p)
    | .link _ => .error (.refused .tooManyLinks p)

/-- When the item was changed to which a path leads. -/
def modified (fs : FileSystem) (p : Path) : Except FileError Int :=
  (fs.locate true p).bind fun place =>
    match fs.item? place with
    | some item => .ok item.modified
    | none => if place = [] then .ok 0 else .error (.refused .notFound p)

/-! ### Changing -/

def put (fs : FileSystem) (place : Place) (item : Item) : FileSystem :=
  let replaced := fs.items.map fun (p, i) => if p = place then (p, item) else (p, i)
  { fs with items := if (fs.item? place).isSome then replaced else fs.items ++ [(place, item)] }

/-- A directory at a path that leads to nothing yet. -/
def makeDirectory (now : Int) (p : Path) (fs : FileSystem) : Except FileError FileSystem :=
  (fs.locate false p).bind fun place =>
    if (fs.content? place).isSome then .error (.refused .occupied p)
    else .ok (fs.put place ⟨.directory, now⟩)

/-- Directories at a path and on the way there, as far as they are missing. Above the last one, `depth`
of them may be. -/
def makeDirectories (now : Int) : (depth : Nat) → Path → FileSystem → FileSystem × Except FileError Unit
  | depth, p, fs =>
    match makeDirectory now p fs with
    | .ok changed => (changed, .ok ())
    | .error (.refused .notFound q) =>
      if p.parent = p then (fs, .error (.refused .notFound q))
      else match depth with
        | 0 => (fs, .error .tooDeep)
        | depth + 1 => match makeDirectories now depth p.parent fs with
          | (fs, .error e) => (fs, .error e)
          | (fs, .ok ()) => settle p fs (makeDirectory now p fs)
    | .error (.refused problem q) => settle p fs (.error (.refused problem q))
    | .error e => (fs, .error e)
where
  /-- A directory that is there already is as good as a new one. -/
  settle (p : Path) (fs : FileSystem) : Except FileError FileSystem → FileSystem × Except FileError Unit
    | .ok changed => (changed, .ok ())
    | .error (.refused .notFound q) => (fs, .error (.refused .notFound q))
    | .error (.refused problem q) =>
      match fs.isDirectory p with
      | .ok true => (fs, .ok ())
      | .ok false => (fs, .error (.refused problem q))
      | .error e => (fs, .error e)
    | .error e => (fs, .error e)

/-- The place of the file at a path, which is made, empty, if it is missing. -/
def openFile (now : Int) (p : Path) (fs : FileSystem) : Except FileError (Place × FileSystem) :=
  (fs.locate true p).bind fun place =>
    match fs.content? place with
    | none => .ok (place, fs.put place ⟨.file [], now⟩)
    | some (.file _) => .ok (place, fs)
    | some _ => .error (.refused .isDirectory p)

/-- Adds bytes to an open file. One that was removed in the meantime stays away. -/
def extend (now : Int) (place : Place) (bytes : Bytes) (fs : FileSystem) : FileSystem :=
  match fs.content? place with
  | some (.file before) => fs.put place ⟨.file (before ++ bytes), now⟩
  | _ => fs

/-- Adds bytes to an open file as far as they are taken. -/
def append (now : Int) (place : Place) (bytes : Bytes) (fs : FileSystem) :
    FileSystem × Except FileError Unit :=
  match fs.refusal? fs.items place bytes with
  | none => (fs.extend now place bytes, .ok ())
  | some (taken, problem) =>
    (if taken = 0 then fs else fs.extend now place (bytes.take taken), .error (.unwritten problem))

/-- Makes the directories around a file, opens the file and adds bytes to it. -/
def record (now : Int) (depth : Nat) (p : Path) (bytes : Bytes) (fs : FileSystem) :
    FileSystem × Except FileError Unit :=
  match makeDirectories now depth p.parent fs with
  | (fs, .error e) => (fs, .error e)
  | (fs, .ok ()) =>
    match openFile now p fs with
    | .ok (place, fs) => append now place bytes fs
    | .error e => (fs, .error e)

end FileSystem
end CommandWrap

import CommandWrap.Text.Basic

/-!
Paths in normal form: no empty and no `.` parts. Two slashes in front are kept apart from one; more
than two count as one.
-/
namespace CommandWrap

structure Path where
  /-- How many slashes stand in front: none, one or two. -/
  slashes : Nat
  parts : List Text
deriving DecidableEq

namespace Path

def leadingSlashes (t : Text) : Nat :=
  match (t.takeWhile fun c : CodePoint => c = '/').length with
  | 0 => 0
  | 2 => 2
  | _ => 1

def partsOf (t : Text) : List Text :=
  (Text.splitOn '/' t).filter fun part => part ≠ [] && part ≠ "."

def ofText (t : Text) : Path := ⟨leadingSlashes t, partsOf t⟩

def toText (p : Path) : Text :=
  if p.slashes = 0 ∧ p.parts = [] then "."
  else List.replicate p.slashes (CodePoint.ofChar '/') ++ Text.join "/" p.parts

def child (p : Path) (name : Text) : Path := { p with parts := p.parts ++ [name] }

/-- The root and the empty path are their own parents. -/
def parent (p : Path) : Path := { p with parts := p.parts.dropLast }

def name (p : Path) : Text := p.parts.getLastD []

/-- A name without its last extension. A dot at either end of the name starts no extension. -/
def stemOf (name : Text) : Text :=
  let tail := (name.reverse.takeWhile fun c : CodePoint => c ≠ '.').reverse
  let front := name.take (name.length - tail.length - 1)
  if tail = [] ∨ tail.length = name.length ∨ front = [] then name else front

end Path
end CommandWrap

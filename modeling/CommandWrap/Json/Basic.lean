import CommandWrap.Text.Basic
import CommandWrap.Number.Binary64

/-! JSON values. An object keeps the order in which its names first appear. -/
namespace CommandWrap

inductive Json
  | null
  | bool (b : Bool)
  | int (n : Int)
  | float (x : Binary64)
  | string (t : Text)
  | array (items : List Json)
  | object (members : List (Text × Json))

/-- Pairs under distinct keys, in the order of first insertion. -/
abbrev Entries (α : Type) := List (Text × α)

namespace Entries

/-- A present key keeps its place and gets the new value. -/
def insert {α : Type} (key : Text) (value : α) : Entries α → Entries α
  | [] => [(key, value)]
  | (k, v) :: rest => if k = key then (k, value) :: rest else (k, v) :: insert key value rest

def ofList {α : Type} (pairs : List (Text × α)) : Entries α :=
  pairs.foldl (fun entries (key, value) => insert key value entries) []

def get? {α : Type} (key : Text) (entries : Entries α) : Option α :=
  entries.lookup key

def hasKey {α : Type} (key : Text) (entries : Entries α) : Bool := (entries.get? key).isSome

end Entries
end CommandWrap

import Mathlib
import CommandWrap.Proofs.Json.Entries

/-! Values that compare as equal: numbers by what they are worth, and objects without regard to the order
of their members. -/
namespace CommandWrap.Json

variable {m n : Entries Json}

/-- What a number is worth. Truth values count as one and zero. -/
def worth? : Json → Option ℚ
  | .bool b => some (if b then 1 else 0)
  | .int n => some n
  | .float (.finite negative m e) => some ((if negative then -1 else 1) * m * (2 : ℚ) ^ e)
  | _ => none

inductive Alike : Json → Json → Prop
  | refl (v : Json) : Alike v v
  | number {a b : Json} {q : ℚ} (ha : a.worth? = some q) (hb : b.worth? = some q) : Alike a b
  | array {items others : List Json} (h : List.Forall₂ Alike items others) :
      Alike (.array items) (.array others)
  | object {m n : Entries Json} (h : ∀ key, Option.Rel Alike (m.get? key) (n.get? key)) :
      Alike (.object m) (.object n)

/-- What is put into both in the same place leaves them alike. -/
lemma Alike.insert (h : ∀ key, Option.Rel Alike (m.get? key) (n.get? key)) (key : Text) (v : Json) :
    Alike (.object (m.insert key v)) (.object (n.insert key v)) := by
  refine .object fun other => ?_
  rw [Entries.get?_insert, Entries.get?_insert]
  split_ifs
  · exact .some (.refl v)
  · exact h other

end CommandWrap.Json

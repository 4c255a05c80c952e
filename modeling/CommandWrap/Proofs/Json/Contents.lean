import Mathlib
import CommandWrap.Json.Parser
import CommandWrap.Json.Printer
import CommandWrap.Proofs.Json.Entries
import CommandWrap.Proofs.Text.CodePoint

/-! How deep a value is nested, and properties of all values in it. -/
namespace CommandWrap.Json

mutual

/-- How many arrays and objects lie around the innermost value. -/
def depth : Json → Nat
  | .array items => depthOfItems items + 1
  | .object members => depthOfMembers members + 1
  | _ => 0

def depthOfItems : List Json → Nat
  | [] => 0
  | item :: more => max (depth item) (depthOfItems more)

def depthOfMembers : List (Text × Json) → Nat
  | [] => 0
  | (_, value) :: more => max (depth value) (depthOfMembers more)

end

mutual

/-- The value and all values in it have the property. -/
def Throughout (p : Json → Prop) : Json → Prop
  | .array items => p (.array items) ∧ ThroughoutItems p items
  | .object members => p (.object members) ∧ ThroughoutMembers p members
  | value => p value

def ThroughoutItems (p : Json → Prop) : List Json → Prop
  | [] => True
  | item :: more => Throughout p item ∧ ThroughoutItems p more

def ThroughoutMembers (p : Json → Prop) : List (Text × Json) → Prop
  | [] => True
  | (_, value) :: more => Throughout p value ∧ ThroughoutMembers p more

end

/-- An integer is short enough to be read, names are distinct, and texts have a property. -/
def IsReadableWith (p : Text → Prop) : Json → Prop
  | .int n => (Text.ofNat n.natAbs).length ≤ maxIntegerDigits
  | .string t => p t
  | .object members => (Entries.keys members).Nodup ∧ ∀ name ∈ Entries.keys members, p name
  | _ => True

/-- What is written of the value itself can be read again. -/
def IsReadable (v : Json) : Prop := IsReadableWith Text.Joined v

/-- The texts of the value itself are joined. -/
def IsJoined : Json → Prop
  | .string t => t.Joined
  | .object members => ∀ name ∈ Entries.keys members, name.Joined
  | _ => True

/-- No number with a fraction or an exponent. -/
def IsExact : Json → Prop
  | .float (.finite ..) => False
  | _ => True

lemma depth_le_depthOfItems {list : List Json} {item : Json} (h : item ∈ list) :
    item.depth ≤ depthOfItems list := by
  induction list with
  | nil => simp at h
  | cons first more ih =>
    rw [depthOfItems]
    rcases List.mem_cons.mp h with rfl | h
    · exact le_max_left _ _
    · exact le_max_of_le_right (ih h)

lemma depth_le_depthOfMembers {list : List (Text × Json)} {member : Text × Json}
    (h : member ∈ list) : member.2.depth ≤ depthOfMembers list := by
  induction list with
  | nil => simp at h
  | cons first more ih =>
    obtain ⟨name, value⟩ := first
    rw [depthOfMembers]
    rcases List.mem_cons.mp h with rfl | h
    · exact le_max_left _ _
    · exact le_max_of_le_right (ih h)

lemma depthOfItems_le {list : List Json} {d : Nat} (h : ∀ item ∈ list, item.depth ≤ d) :
    depthOfItems list ≤ d := by
  induction list with
  | nil => exact Nat.zero_le d
  | cons first more ih =>
    rw [depthOfItems]
    exact max_le (h first List.mem_cons_self) (ih fun item hitem => h item (List.mem_cons_of_mem first hitem))

lemma depthOfMembers_le {list : List (Text × Json)} {d : Nat} (h : ∀ member ∈ list, member.2.depth ≤ d) :
    depthOfMembers list ≤ d := by
  induction list with
  | nil => exact Nat.zero_le d
  | cons first more ih =>
    rw [depthOfMembers]
    exact max_le (h first List.mem_cons_self)
      (ih fun member hmember => h member (List.mem_cons_of_mem first hmember))

lemma throughoutItems_iff {p : Json → Prop} {list : List Json} :
    ThroughoutItems p list ↔ ∀ item ∈ list, Throughout p item := by
  induction list with
  | nil => simp [ThroughoutItems]
  | cons item more ih => simp [ThroughoutItems, ih]

lemma throughoutMembers_iff {p : Json → Prop} {list : List (Text × Json)} :
    ThroughoutMembers p list ↔ ∀ member ∈ list, Throughout p member.2 := by
  induction list with
  | nil => simp [ThroughoutMembers]
  | cons member more ih =>
    obtain ⟨name, value⟩ := member
    simp [ThroughoutMembers, ih]

mutual

lemma throughout_and {p q : Json → Prop} : (v : Json) → Throughout p v → Throughout q v →
    Throughout (fun u => p u ∧ q u) v
  | .array items, hp, hq => ⟨⟨hp.1, hq.1⟩, throughoutItems_and items hp.2 hq.2⟩
  | .object members, hp, hq => ⟨⟨hp.1, hq.1⟩, throughoutMembers_and members hp.2 hq.2⟩
  | .null, hp, hq => ⟨hp, hq⟩
  | .bool _, hp, hq => ⟨hp, hq⟩
  | .int _, hp, hq => ⟨hp, hq⟩
  | .float _, hp, hq => ⟨hp, hq⟩
  | .string _, hp, hq => ⟨hp, hq⟩

lemma throughoutItems_and {p q : Json → Prop} : (list : List Json) → ThroughoutItems p list →
    ThroughoutItems q list → ThroughoutItems (fun u => p u ∧ q u) list
  | [], _, _ => trivial
  | item :: more, hp, hq => ⟨throughout_and item hp.1 hq.1, throughoutItems_and more hp.2 hq.2⟩

lemma throughoutMembers_and {p q : Json → Prop} : (list : List (Text × Json)) →
    ThroughoutMembers p list → ThroughoutMembers q list → ThroughoutMembers (fun u => p u ∧ q u) list
  | [], _, _ => trivial
  | (_, value) :: more, hp, hq =>
    ⟨throughout_and value hp.1 hq.1, throughoutMembers_and more hp.2 hq.2⟩

end

mutual

lemma throughout_imp {p q : Json → Prop} (h : ∀ u, p u → q u) : (v : Json) → Throughout p v →
    Throughout q v
  | .array items, hp => ⟨h _ hp.1, throughoutItems_imp h items hp.2⟩
  | .object members, hp => ⟨h _ hp.1, throughoutMembers_imp h members hp.2⟩
  | .null, hp => h _ hp
  | .bool _, hp => h _ hp
  | .int _, hp => h _ hp
  | .float _, hp => h _ hp
  | .string _, hp => h _ hp

lemma throughoutItems_imp {p q : Json → Prop} (h : ∀ u, p u → q u) : (list : List Json) →
    ThroughoutItems p list → ThroughoutItems q list
  | [], _ => trivial
  | item :: more, hp => ⟨throughout_imp h item hp.1, throughoutItems_imp h more hp.2⟩

lemma throughoutMembers_imp {p q : Json → Prop} (h : ∀ u, p u → q u) : (list : List (Text × Json)) →
    ThroughoutMembers p list → ThroughoutMembers q list
  | [], _ => trivial
  | (_, value) :: more, hp => ⟨throughout_imp h value hp.1, throughoutMembers_imp h more hp.2⟩

end

lemma throughout_self {p : Json → Prop} {v : Json} (h : Throughout p v) : p v := by
  cases v with
  | array items => exact h.1
  | object members => exact h.1
  | null => exact h
  | bool b => exact h
  | int n => exact h
  | float x => exact h
  | string t => exact h

end CommandWrap.Json

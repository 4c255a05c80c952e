import Mathlib
import CommandWrap.Json.Printer
import CommandWrap.Proofs.Json.StringText
import CommandWrap.Proofs.Number.Decimal

/-! A value is written in visible signs and spaces alone, so on one line of ASCII. -/
namespace CommandWrap

namespace Text

lemma isVisible_append {s t : Text} : (s ++ t).IsVisible ↔ s.IsVisible ∧ t.IsVisible := by
  simp only [IsVisible, List.mem_append, or_imp, forall_and]

lemma isVisible_cons {c : CodePoint} {t : Text} : IsVisible (c :: t) ↔ c.IsVisible ∧ t.IsVisible := by
  simp only [IsVisible, List.mem_cons, forall_eq_or_imp]

lemma isVisible_of_isDigit {t : Text} (ht : ∀ c ∈ t, c.isDigit = true) : t.IsVisible := by
  intro c hc
  have := ht c hc
  simp only [CodePoint.isDigit, Bool.and_eq_true, decide_eq_true_eq] at this
  simp only [CodePoint.IsVisible]
  omega

lemma isVisible_ofNat (n : Nat) : (ofNat n).IsVisible :=
  isVisible_of_isDigit fun _ => isDigit_of_mem_ofNat

lemma isVisible_ofInt (n : Int) : (ofInt n).IsVisible := by
  cases n with
  | ofNat n => exact isVisible_ofNat n
  | negSucc n => exact isVisible_cons.mpr ⟨by decide, isVisible_ofNat _⟩

end Text

namespace Binary64

lemma isDigit_of_mem_shortest {m : Nat} {e : Int} {c : CodePoint} (hc : c ∈ (shortest m e).1) :
    c.isDigit = true := by
  unfold shortest at hc
  by_cases hm : m = 0
  · rw [if_pos hm] at hc
    revert c
    decide
  · rw [if_neg hm] at hc
    exact Text.isDigit_of_mem_ofNat (List.mem_reverse.mp
      ((List.dropWhile_sublist _).subset (List.mem_reverse.mp hc)))

lemma isVisible_zeros (n : Nat) : Text.IsVisible (List.replicate n (CodePoint.ofChar '0')) := by
  intro c hc
  rw [(List.mem_replicate.mp hc).2]
  decide

lemma isVisible_positional {digits : Text} (hd : digits.IsVisible) (point : Int) :
    (positional digits point).IsVisible := by
  have hpart : ∀ n, Text.IsVisible (digits.take n) ∧ Text.IsVisible (digits.drop n) := fun n =>
    ⟨fun c hc => hd c (List.mem_of_mem_take hc), fun c hc => hd c (List.mem_of_mem_drop hc)⟩
  unfold positional
  split_ifs
  · exact Text.isVisible_append.mpr
      ⟨Text.isVisible_append.mpr ⟨by decide, isVisible_zeros _⟩, hd⟩
  · exact Text.isVisible_append.mpr
      ⟨Text.isVisible_append.mpr ⟨hd, isVisible_zeros _⟩, by decide⟩
  · exact Text.isVisible_append.mpr
      ⟨Text.isVisible_append.mpr ⟨(hpart _).1, by decide⟩, (hpart _).2⟩

lemma isVisible_scientific (layout : Layout) {digits : Text} (hd : digits.IsVisible) (point : Int) :
    (scientific layout digits point).IsVisible := by
  have hsign : ∀ b : Bool, Text.IsVisible [if b then CodePoint.ofChar '-' else CodePoint.ofChar '+'] := by
    decide
  simp only [scientific, Text.isVisible_append]
  refine ⟨⟨⟨⟨fun c hc => hd c (List.mem_of_mem_take hc), ?_⟩, by decide⟩, ?_⟩,
    Text.isVisible_of_isDigit fun c hc => Text.isDigit_of_mem_padZeros hc⟩
  · split_ifs
    · decide
    · exact Text.isVisible_cons.mpr ⟨by decide, fun c hc => hd c (List.mem_of_mem_drop hc)⟩
  · simpa using hsign (decide (point - 1 < 0))

lemma isVisible_finiteText (layout : Layout) (negative : Bool) (m : Nat) (e : Int) :
    (finiteText layout negative m e).IsVisible := by
  have hd : (shortest m e).1.IsVisible := Text.isVisible_of_isDigit fun _ => isDigit_of_mem_shortest
  have hbody : ∀ point, Text.IsVisible (if layout.minPoint ≤ point ∧ point ≤ layout.maxPoint then
      positional (shortest m e).1 point else scientific layout (shortest m e).1 point) := by
    intro point
    split_ifs
    · exact isVisible_positional hd point
    · exact isVisible_scientific layout hd point
  unfold finiteText
  cases negative with
  | false => exact hbody _
  | true => exact Text.isVisible_cons.mpr ⟨by decide, hbody _⟩

end Binary64

namespace Json

lemma isVisible_digitChar (n : Nat) : (CodePoint.ofChar (Nat.digitChar (n % 16))).IsVisible := by
  have h : ∀ d < 16, (CodePoint.ofChar (Nat.digitChar d)).IsVisible := by decide
  exact h _ (Nat.mod_lt _ (by decide))

lemma isVisible_unicodeEscape (n : Nat) : (unicodeEscape n).IsVisible := by
  rw [unicodeEscape, hex_four]
  simp only [Text.isVisible_cons, isVisible_digitChar, true_and]
  decide

lemma isVisible_of_shortEscape {e d : CodePoint} (h : shortEscape? e = some d) : e.IsVisible := by
  by_contra he
  have hne : ∀ x : CodePoint, x.IsVisible → e ≠ x := by
    rintro x hx rfl
    exact he hx
  have hquotes : ¬ (e = '"' ∨ e = '\\' ∨ e = '/') := by
    rintro (h | h | h) <;> exact hne _ (by decide) h
  rw [shortEscape?, if_neg hquotes, if_neg (hne _ (by decide)), if_neg (hne _ (by decide)),
    if_neg (hne _ (by decide)), if_neg (hne _ (by decide)), if_neg (hne _ (by decide))] at h
  simp at h

lemma isVisible_escaped (c : CodePoint) : (escaped c).IsVisible := by
  rcases escaped_cases c with ⟨e, h, -, he⟩ | ⟨h, -, -, hc⟩ | ⟨h, -⟩ | ⟨h, -⟩
  · rw [h]
    exact Text.isVisible_cons.mpr ⟨by decide,
      Text.isVisible_cons.mpr ⟨isVisible_of_shortEscape he, by decide⟩⟩
  · rw [h]
    exact Text.isVisible_cons.mpr ⟨hc, by decide⟩
  · rw [h]
    exact isVisible_unicodeEscape _
  · rw [h]
    exact Text.isVisible_append.mpr ⟨isVisible_unicodeEscape _, isVisible_unicodeEscape _⟩

lemma isVisible_stringText (t : Text) : (stringText t).IsVisible := by
  simp only [stringText, Text.isVisible_append]
  refine ⟨⟨by decide, ?_⟩, by decide⟩
  intro d hd
  obtain ⟨c, -, hd⟩ := List.mem_flatMap.mp hd
  exact isVisible_escaped c d hd

lemma isVisible_floatText (x : Binary64) : (floatText x).IsVisible := by
  match x with
  | .finite negative m e => exact Binary64.isVisible_finiteText _ negative m e
  | .infinite false => decide
  | .infinite true => decide
  | .nan => decide

mutual

theorem isVisible_render : (v : Json) → (render v).IsVisible
  | .null => by decide
  | .bool true => by decide
  | .bool false => by decide
  | .int n => Text.isVisible_ofInt n
  | .float x => isVisible_floatText x
  | .string t => isVisible_stringText t
  | .array items => by
    rw [render, Text.isVisible_append, Text.isVisible_append]
    exact ⟨⟨by decide, isVisible_renderItems items⟩, by decide⟩
  | .object members => by
    rw [render, Text.isVisible_append, Text.isVisible_append]
    exact ⟨⟨by decide, isVisible_renderMembers members⟩, by decide⟩

theorem isVisible_renderItems : (list : List Json) → (renderItems list).IsVisible
  | [] => by decide
  | [item] => by
    rw [renderItems]
    exact isVisible_render item
  | item :: next :: more => by
    rw [renderItems, Text.isVisible_append, Text.isVisible_append]
    exact ⟨⟨isVisible_render item, by decide⟩, isVisible_renderItems (next :: more)⟩
    simp

theorem isVisible_renderMembers : (list : List (Text × Json)) → (renderMembers list).IsVisible
  | [] => by decide
  | [(name, value)] => by
    rw [renderMembers]
    simp only [Text.isVisible_append]
    exact ⟨⟨isVisible_stringText name, by decide⟩, isVisible_render value⟩
  | (name, value) :: next :: more => by
    rw [renderMembers]
    · simp only [Text.isVisible_append]
      exact ⟨⟨⟨⟨isVisible_stringText name, by decide⟩, isVisible_render value⟩, by decide⟩,
        isVisible_renderMembers (next :: more)⟩
    · simp

end

end Json
end CommandWrap

import Mathlib
import CommandWrap.Text.Lines

/-! Code points by their numbers, and texts whose surrogates are joined as far as they can be. -/
namespace CommandWrap

namespace CodePoint

theorem eq_iff_val {c d : CodePoint} : c = d ↔ c.val = d.val := by
  cases c
  cases d
  simp

@[simp] theorem ofChar_val (x : Char) : (ofChar x).val = x.toNat := rfl

theorem eq_ofChar {c : CodePoint} {x : Char} : c = ofChar x ↔ c.val = x.toNat := eq_iff_val

/-- A visible sign of ASCII or the space. -/
def IsVisible (c : CodePoint) : Prop := 0x20 ≤ c.val ∧ c.val < 0x7F

instance (c : CodePoint) : Decidable c.IsVisible := inferInstanceAs (Decidable (_ ∧ _))

theorem isSurrogate_iff (c : CodePoint) :
    c.isSurrogate = true ↔ c.isHighSurrogate = true ∨ c.isLowSurrogate = true := by
  simp only [isSurrogate, isHighSurrogate, isLowSurrogate, Bool.and_eq_true, decide_eq_true_eq]
  omega

end CodePoint

namespace Text

/-- No high surrogate stands right before a low one. -/
def Joined (t : Text) : Prop :=
  t.IsChain fun a b => ¬ (a.isHighSurrogate = true ∧ b.isLowSurrogate = true)

/-- The text holds characters only, as one that was decoded does. -/
def IsScalar (t : Text) : Prop := ∀ c ∈ t, c.isSurrogate = false

/-- Everything in the text is a visible sign of ASCII or a space. -/
def IsVisible (t : Text) : Prop := ∀ c ∈ t, c.IsVisible

instance (t : Text) : Decidable t.Joined := inferInstanceAs (Decidable (List.IsChain _ t))

instance (t : Text) : Decidable t.IsScalar := inferInstanceAs (Decidable (∀ c ∈ t, _))

instance (t : Text) : Decidable t.IsVisible := inferInstanceAs (Decidable (∀ c ∈ t, _))

theorem isScalar_cons {c : CodePoint} {t : Text} :
    IsScalar (c :: t) ↔ c.isSurrogate = false ∧ t.IsScalar := by
  simp [IsScalar]

theorem IsVisible.isScalar {t : Text} (ht : t.IsVisible) : t.IsScalar := by
  intro c hc
  have := ht c hc
  simp only [CodePoint.IsVisible] at this
  simp only [CodePoint.isSurrogate, Bool.and_eq_false_iff, decide_eq_false_iff_not]
  omega

theorem IsScalar.joined {t : Text} (ht : t.IsScalar) : t.Joined := by
  induction t with
  | nil => exact List.isChain_nil
  | cons c t ih =>
    obtain ⟨hc, ht⟩ := isScalar_cons.mp ht
    refine List.isChain_cons.mpr ⟨fun d _ hd => ?_, ih ht⟩
    rw [(CodePoint.isSurrogate_iff c).mpr (.inl hd.1)] at hc
    simp at hc

/-- A piece of a joined text is joined. -/
theorem Joined.of_isInfix {s t : Text} (ht : t.Joined) (h : s <:+: t) : s.Joined := by
  obtain ⟨before, behind, rfl⟩ := h
  rw [Joined, List.append_assoc, List.isChain_append] at ht
  exact (List.isChain_append.mp ht.2.1).1

/-- Joined texts may stand side by side if the second starts with no low surrogate. -/
theorem Joined.append {s t : Text} (hs : s.Joined) (ht : t.Joined)
    (h : ∀ c ∈ t.head?, c.isLowSurrogate = false) : Joined (s ++ t) := by
  refine List.isChain_append.mpr ⟨hs, ht, fun c _ d hd hcd => ?_⟩
  rw [h d hd] at hcd
  simp at hcd

end Text
end CommandWrap

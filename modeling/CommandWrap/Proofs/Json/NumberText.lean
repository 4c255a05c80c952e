import Mathlib
import CommandWrap.Proofs.Json.Contents
import CommandWrap.Proofs.Number.Decimal

/-! Integers and fixed words are read as they are written. Numbers with a fraction are left out:
their digits are chosen by rounding. -/
namespace CommandWrap.Json

/-- Nothing that could belong to the value in front: the text ends, or a sign of the surrounding
array or object follows. -/
def Closes (rest : Text) : Prop :=
  ∀ c ∈ rest.head?, c = CodePoint.ofChar ',' ∨ c = CodePoint.ofChar ']' ∨ c = CodePoint.ofChar '\x7d'

lemma closes_nil : Closes [] := by simp [Closes]

lemma closes_comma (rest : Text) : Closes (CodePoint.ofChar ',' :: rest) := by simp [Closes]

lemma closes_bracket (rest : Text) : Closes (CodePoint.ofChar ']' :: rest) := by simp [Closes]

lemma closes_brace (rest : Text) : Closes (CodePoint.ofChar '\x7d' :: rest) := by simp [Closes]

lemma takeWhile_digits {digits rest : Text} (hd : ∀ c ∈ digits, c.isDigit = true)
    (hr : ∀ c ∈ rest.head?, c.isDigit = false) :
    (digits ++ rest).takeWhile CodePoint.isDigit = digits := by
  rw [List.takeWhile_append_of_pos hd]
  cases rest with
  | nil => simp
  | cons c rest => simp [hr c rfl]

lemma closes_not_digit {rest : Text} (hr : Closes rest) : ∀ c ∈ rest.head?, c.isDigit = false := by
  intro c hc
  rcases hr c hc with rfl | rfl | rfl <;> decide

lemma wholeDigits_ofNat (n : Nat) {rest : Text} (hr : Closes rest) :
    wholeDigits (Text.ofNat n ++ rest) = Text.ofNat n := by
  rcases Text.ofNat_head n with h | ⟨d, digits, h, h0, hd, hall⟩
  · rw [h]
    rfl
  · rw [h, List.cons_append, wholeDigits, if_neg h0, if_pos hd,
      takeWhile_digits hall (closes_not_digit hr)]

lemma fraction_closes {rest : Text} (hr : Closes rest) : fraction? rest = none := by
  cases rest with
  | nil => rfl
  | cons c rest =>
    have hc : ¬ c = CodePoint.ofChar '.' := by
      rcases hr c rfl with rfl | rfl | rfl <;> decide
    simp [fraction?, hc]

lemma exponent_closes {rest : Text} (hr : Closes rest) : exponent? rest = none := by
  cases rest with
  | nil => rfl
  | cons c rest =>
    have hc : ¬ (c = CodePoint.ofChar 'e' ∨ c = CodePoint.ofChar 'E') := by
      rcases hr c rfl with rfl | rfl | rfl <;> decide
    simp [exponent?, hc]

def sign (negative : Bool) : Text := if negative then "-" else []

lemma ofInt_eq (n : Int) : Text.ofInt n = sign (decide (n < 0)) ++ Text.ofNat n.natAbs := by
  cases n with
  | ofNat n => rfl
  | negSucc n =>
    rw [decide_eq_true (Int.negSucc_lt_zero n)]
    rfl

lemma number_signed (negative : Bool) (n : Nat) (hn : (Text.ofNat n).length ≤ maxIntegerDigits)
    {rest : Text} (hr : Closes rest) :
    number (sign negative ++ Text.ofNat n ++ rest) =
      .ok (.int (if negative then -n else n), rest) := by
  obtain ⟨c, behind, hc, hs⟩ : ∃ c behind, sign negative ++ Text.ofNat n ++ rest = c :: behind ∧
      (if c = CodePoint.ofChar '-' then (true, behind) else (false, c :: behind)) =
        (negative, Text.ofNat n ++ rest) := by
    cases negative with
    | true => exact ⟨_, _, rfl, rfl⟩
    | false =>
      cases h : Text.ofNat n with
      | nil => exact absurd h (Text.ofNat_ne_nil n)
      | cons d digits =>
        have hd : d ≠ CodePoint.ofChar '-' := by
          rintro rfl
          exact absurd (Text.isDigit_of_mem_ofNat (h ▸ List.mem_cons_self)) (by decide)
        exact ⟨d, digits ++ rest, rfl, by rw [if_neg hd]; rfl⟩
  have hw : wholeDigits (Text.ofNat n ++ rest) ≠ [] := by
    rw [wholeDigits_ofNat n hr]
    exact Text.ofNat_ne_nil n
  unfold number
  rw [hc]
  dsimp only
  rw [hs]
  dsimp only
  rw [if_neg hw, wholeDigits_ofNat n hr, List.drop_left, fraction_closes hr]
  dsimp only
  rw [exponent_closes hr]
  dsimp only
  rw [if_neg (by omega), Text.digitsValue_ofNat]

lemma number_ofInt {n : Int} (hn : (Text.ofNat n.natAbs).length ≤ maxIntegerDigits) {rest : Text}
    (hr : Closes rest) : number (Text.ofInt n ++ rest) = .ok (.int n, rest) := by
  rw [ofInt_eq, number_signed _ _ hn hr]
  by_cases h : n < 0
  · simp [h, abs_of_neg]
  · simp [h, abs_of_nonneg (not_lt.mp h)]

lemma ofInt_head (n : Int) :
    ∃ negative d digits, Text.ofInt n = sign negative ++ d :: digits ∧ d.isDigit = true := by
  cases h : Text.ofNat n.natAbs with
  | nil => exact absurd h (Text.ofNat_ne_nil _)
  | cons d digits =>
    exact ⟨_, d, digits, by rw [ofInt_eq, h],
      Text.isDigit_of_mem_ofNat (h ▸ List.mem_cons_self)⟩

/-! ### Fixed words -/

lemma scalar_word {word : Text} {value : Json} (h : (word, value) ∈ wordValues) (rest : Text) :
    scalar (word ++ rest) = .ok (value, rest) := by
  simp only [wordValues, List.mem_cons, List.not_mem_nil, or_false, Prod.mk.injEq] at h
  rcases h with ⟨rfl, rfl⟩ | ⟨rfl, rfl⟩ | ⟨rfl, rfl⟩ | ⟨rfl, rfl⟩ | ⟨rfl, rfl⟩ | ⟨rfl, rfl⟩ <;> rfl

/-- A number starts no fixed word. -/
lemma wordValues_digit (negative : Bool) {d : CodePoint} (hd : d.isDigit = true) (more : Text) :
    wordValues.find? (fun (word, _) => word.isPrefixOf (sign negative ++ d :: more)) = none := by
  have hprefix : ∀ (c : CodePoint) (word : Text), c.isDigit = false →
      (c :: word).isPrefixOf (d :: more) = false := by
    intro c word hc
    have hne : (c == d) = false := by
      rw [beq_eq_false_iff_ne]
      rintro rfl
      simp [hc] at hd
    rw [List.isPrefixOf, hne, Bool.false_and]
  rw [List.find?_eq_none]
  rintro ⟨word, value⟩ h
  rw [Bool.not_eq_true]
  simp only [wordValues, List.mem_cons, List.not_mem_nil, or_false, Prod.mk.injEq] at h
  cases negative with
  | false =>
    rcases h with ⟨rfl, -⟩ | ⟨rfl, -⟩ | ⟨rfl, -⟩ | ⟨rfl, -⟩ | ⟨rfl, -⟩ | ⟨rfl, -⟩ <;>
      exact hprefix _ _ (by decide)
  | true =>
    rcases h with ⟨rfl, -⟩ | ⟨rfl, -⟩ | ⟨rfl, -⟩ | ⟨rfl, -⟩ | ⟨rfl, -⟩ | ⟨rfl, -⟩
    · rfl
    · rfl
    · rfl
    · rfl
    · rfl
    · exact hprefix (CodePoint.ofChar 'I') _ (by decide)

lemma scalar_ofInt {n : Int} (hn : (Text.ofNat n.natAbs).length ≤ maxIntegerDigits) {rest : Text}
    (hr : Closes rest) : scalar (Text.ofInt n ++ rest) = .ok (.int n, rest) := by
  obtain ⟨negative, d, digits, h, hd⟩ := ofInt_head n
  have hnone := wordValues_digit negative hd (digits ++ rest)
  rw [scalar, ← number_ofInt hn hr, h, List.append_assoc, List.cons_append, hnone]

/-! ### What is read of a number

A number is taken apart once, into its sign, its digits, its decimals and its power. -/

/-- The reader has come from `here` to `rest`, and no object opens in between. -/
def Flat (here rest : Text) : Prop :=
  ∃ read, here = read ++ rest ∧ CodePoint.ofChar '\x7b' ∉ read

namespace Flat

variable {here behind rest : Text} {c : CodePoint}

lemma refl (here : Text) : Flat here here := ⟨[], rfl, List.not_mem_nil⟩

lemma trans (h : Flat here behind) (hrest : Flat behind rest) : Flat here rest := by
  obtain ⟨read, rfl, hread⟩ := h
  obtain ⟨more, rfl, hmore⟩ := hrest
  exact ⟨read ++ more, (List.append_assoc _ _ _).symm, by simp [hread, hmore]⟩

lemma cons (hc : c ≠ CodePoint.ofChar '\x7b') (h : Flat behind rest) : Flat (c :: behind) rest := by
  obtain ⟨read, rfl, hread⟩ := h
  exact ⟨c :: read, rfl, by simp [hread, hc.symm]⟩

lemma dropWhile {p : CodePoint → Bool} (hp : p (CodePoint.ofChar '\x7b') = false) (here : Text) :
    Flat here (here.dropWhile p) := by
  refine ⟨here.takeWhile p, List.takeWhile_append_dropWhile.symm, fun hmem => ?_⟩
  rw [List.mem_takeWhile_imp hmem] at hp
  cases hp

lemma forall_mem {kind : CodePoint → Prop} (h : Flat here rest) (hhere : ∀ c ∈ here, kind c) :
    ∀ c ∈ rest, kind c := by
  obtain ⟨read, rfl, -⟩ := h
  exact fun c hc => hhere c (List.mem_append_right read hc)

end Flat

section

variable {here rest : Text}

lemma isDigit_of_mem_wholeDigits {t : Text} {c : CodePoint} (hc : c ∈ wholeDigits t) :
    c.isDigit = true := by
  cases t with
  | nil => simp [wholeDigits] at hc
  | cons d rest =>
    rw [wholeDigits] at hc
    split_ifs at hc with h0 hd
    · rw [List.mem_singleton.mp hc, h0]
      decide
    · rcases List.mem_cons.mp hc with rfl | hc
      · exact hd
      · exact List.mem_takeWhile_imp hc
    · simp at hc

lemma flat_digits (here : Text) :
    Flat here (here.drop (here.takeWhile CodePoint.isDigit).length) := by
  have hdrop : here.drop (here.takeWhile CodePoint.isDigit).length =
      here.dropWhile CodePoint.isDigit :=
    calc here.drop (here.takeWhile CodePoint.isDigit).length
        = (here.takeWhile CodePoint.isDigit ++ here.dropWhile CodePoint.isDigit).drop
            (here.takeWhile CodePoint.isDigit).length := by
          rw [List.takeWhile_append_dropWhile]
      _ = here.dropWhile CodePoint.isDigit := List.drop_left
  rw [hdrop]
  exact .dropWhile (by decide) here

lemma flat_wholeDigits (here : Text) : Flat here (here.drop (wholeDigits here).length) := by
  cases here with
  | nil => exact .refl []
  | cons c behind =>
    rw [wholeDigits]
    split_ifs with hzero hdigit
    · exact .cons (by rw [hzero]; decide) (.refl behind)
    · refine .cons ?_ (flat_digits behind)
      rintro rfl
      revert hdigit
      decide
    · exact .refl _

lemma flat_fraction {digits : Text} (h : fraction? here = some (digits, rest)) : Flat here rest := by
  cases here with
  | nil => simp [fraction?] at h
  | cons point behind =>
    simp only [fraction?, Option.ite_none_right_eq_some, Option.some.injEq, Prod.mk.injEq] at h
    obtain ⟨⟨rfl, -⟩, -, rfl⟩ := h
    exact .cons (by decide) (flat_digits behind)

lemma flat_exponent {power : Int} (h : exponent? here = some (power, rest)) : Flat here rest := by
  cases here with
  | nil => simp [exponent?] at h
  | cons e behind =>
    unfold exponent? at h
    dsimp only at h
    simp only [Option.ite_none_right_eq_some, Option.some.injEq, Prod.mk.injEq] at h
    obtain ⟨⟨he, -⟩, -, rfl⟩ := h
    refine .cons (by rcases he with rfl | rfl <;> decide) (.trans ?_ (flat_digits _))
    cases behind with
    | nil => exact .refl []
    | cons sign more =>
      dsimp only
      split_ifs with hminus hplus
      · exact .cons (by rw [hminus]; decide) (.refl more)
      · exact .cons (by rw [hplus]; decide) (.refl more)
      · exact .refl _

/-- A number is a sign, whole digits, and decimals and a power where they stand. Without decimals and a
power it is an integer, and has no more digits than an integer may have. -/
lemma number_eq_ok {v : Json} (h : number here = .ok (v, rest)) :
    ∃ body middle,
      (here = body ∨ here = CodePoint.ofChar '-' :: body) ∧
      (middle = body.drop (wholeDigits body).length ∨
        ∃ digits, fraction? (body.drop (wholeDigits body).length) = some (digits, middle)) ∧
      (rest = middle ∨ ∃ power, exponent? middle = some (power, rest)) ∧
      ((∃ x, v = .float x) ∨
        ∃ n : Int, v = .int n ∧ n.natAbs = (wholeDigits body).digitsValue ∧
          (wholeDigits body).length ≤ maxIntegerDigits) := by
  cases here with
  | nil => simp [number, wholeDigits, fail] at h
  | cons sign more =>
    unfold number at h
    dsimp only at h
    generalize hpair : (if sign = CodePoint.ofChar '-' then (true, more) else (false, sign :: more)) =
      pair at h
    have hbody : sign :: more = pair.2 ∨ sign :: more = CodePoint.ofChar '-' :: pair.2 := by
      rw [← hpair]
      split_ifs with hminus
      · exact .inr (by rw [hminus])
      · exact .inl rfl
    have hwhole : wholeDigits pair.2 ≠ [] := by
      intro hnone
      rw [if_pos hnone] at h
      simp [fail] at h
    rw [if_neg hwhole] at h
    -- Decimals and a power are optional; the value is an integer in one case of the four.
    cases hfraction : fraction? (pair.2.drop (wholeDigits pair.2).length) with
    | some found =>
      refine ⟨pair.2, found.2, hbody, .inr ⟨found.1, hfraction⟩, ?_⟩
      simp only [hfraction] at h
      cases hexponent : exponent? found.2 with
      | none =>
        simp only [hexponent, Option.getD_none, Except.ok.injEq, Prod.mk.injEq] at h
        exact ⟨.inl h.2.symm, .inl ⟨_, h.1.symm⟩⟩
      | some power =>
        simp only [hexponent, Option.getD_some, Except.ok.injEq, Prod.mk.injEq] at h
        exact ⟨.inr ⟨power.1, by rw [← h.2]⟩, .inl ⟨_, h.1.symm⟩⟩
    | none =>
      refine ⟨pair.2, _, hbody, .inl rfl, ?_⟩
      simp only [hfraction] at h
      cases hexponent : exponent? (pair.2.drop (wholeDigits pair.2).length) with
      | none =>
        simp only [hexponent] at h
        have hshort : ¬ maxIntegerDigits < (wholeDigits pair.2).length := by
          intro hlong
          rw [if_pos hlong] at h
          cases h
        rw [if_neg hshort] at h
        obtain ⟨rfl, rfl⟩ := Prod.mk.inj (Except.ok.inj h)
        refine ⟨.inl rfl, .inr ⟨_, rfl, ?_, not_lt.mp hshort⟩⟩
        split_ifs <;> omega
      | some power =>
        simp only [hexponent, Option.getD_some, Except.ok.injEq, Prod.mk.injEq] at h
        exact ⟨.inr ⟨power.1, by rw [← h.2]⟩, .inl ⟨_, h.1.symm⟩⟩

lemma flat_number {v : Json} (h : number here = .ok (v, rest)) : Flat here rest := by
  obtain ⟨body, middle, hbody, hmiddle, hrest, -⟩ := number_eq_ok h
  have hsign : Flat here body := by
    rcases hbody with rfl | rfl
    · exact .refl _
    · exact .cons (by decide) (.refl body)
  have hdecimals : Flat body middle := by
    refine .trans (flat_wholeDigits body) ?_
    rcases hmiddle with rfl | ⟨digits, hdigits⟩
    · exact .refl _
    · exact flat_fraction hdigits
  have hpower : Flat middle rest := by
    rcases hrest with rfl | ⟨power, hpower⟩
    · exact .refl _
    · exact flat_exponent hpower
  exact hsign.trans (hdecimals.trans hpower)

lemma number_value {v : Json} (h : number here = .ok (v, rest)) :
    (∃ x, v = .float x) ∨
      ∃ n : Int, v = .int n ∧ (Text.ofNat n.natAbs).length ≤ maxIntegerDigits := by
  obtain ⟨body, -, -, -, -, hfloat | ⟨n, hv, habs, hshort⟩⟩ := number_eq_ok h
  · exact .inl hfloat
  · refine .inr ⟨n, hv, ?_⟩
    rw [Text.length_ofNat_le (by decide), habs]
    calc (wholeDigits body).digitsValue
        < 10 ^ (wholeDigits body).length :=
          Text.digitsValue_lt fun c hc => isDigit_of_mem_wholeDigits hc
      _ ≤ 10 ^ maxIntegerDigits := Nat.pow_le_pow_right (by decide) hshort

lemma flat_scalar {v : Json} (h : scalar here = .ok (v, rest)) : Flat here rest := by
  rw [scalar] at h
  split at h
  · rename_i word value hfind
    obtain ⟨-, rfl⟩ := Prod.mk.inj (Except.ok.inj h)
    have hword : word <+: here := by simpa using List.find?_some hfind
    obtain ⟨behind, rfl⟩ := hword
    have hbrace : ∀ entry ∈ wordValues, CodePoint.ofChar '\x7b' ∉ entry.1 := by decide
    rw [List.drop_left]
    exact ⟨word, rfl, hbrace _ (List.mem_of_find?_eq_some hfind)⟩
  · exact flat_number h

end

end CommandWrap.Json

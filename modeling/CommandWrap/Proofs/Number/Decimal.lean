import Mathlib
import CommandWrap.Proofs.Text.CodePoint

/-! Numbers in base ten: the digits that are written give the number back. -/
namespace CommandWrap.Text

lemma isDigit_ofChar {x : Char} (hx : x.isDigit = true) : (CodePoint.ofChar x).isDigit = true := by
  simp only [Char.isDigit, Bool.and_eq_true, decide_eq_true_eq, ge_iff_le,
    UInt32.le_iff_toNat_le] at hx
  have h0 : '0'.val.toNat ≤ x.toNat := hx.1
  have h9 : x.toNat ≤ '9'.val.toNat := hx.2
  rw [CodePoint.isDigit, Bool.and_eq_true, decide_eq_true_eq, decide_eq_true_eq]
  exact ⟨h0, h9⟩

theorem isDigit_of_mem_ofNat {n : Nat} {c : CodePoint} (hc : c ∈ ofNat n) : c.isDigit = true := by
  obtain ⟨x, hx, rfl⟩ := List.mem_map.mp hc
  exact isDigit_ofChar (Nat.isDigit_of_mem_toDigits (by decide) (by decide) hx)

theorem ofNat_ne_nil (n : Nat) : ofNat n ≠ [] := by simp [ofNat]

theorem length_ofNat_le {n k : Nat} (hk : 0 < k) : (ofNat n).length ≤ k ↔ n < 10 ^ k := by
  rw [ofNat, List.length_map]
  exact Nat.length_toDigits_le_iff (by decide) hk

lemma foldl_digits (l : List Char) (init : Nat) :
    (l.map CodePoint.ofChar).foldl (fun n c => 10 * n + c.digit) init = Nat.ofDigitChars 10 l init := by
  induction l generalizing init with
  | nil => rfl
  | cons x l ih =>
    rw [List.map_cons, List.foldl_cons, ih, Nat.ofDigitChars_cons]
    rfl

theorem digitsValue_ofNat (n : Nat) : digitsValue (ofNat n) = n := by
  rw [digitsValue, ofNat, foldl_digits, Nat.ofDigitChars_ten_toDigits]

/-- No zero stands in front, unless it is the only digit. -/
theorem ofNat_head (n : Nat) : ofNat n = [CodePoint.ofChar '0'] ∨
    ∃ d rest, ofNat n = d :: rest ∧ d ≠ '0' ∧ d.isDigit = true ∧ ∀ c ∈ rest, c.isDigit = true := by
  induction n using Nat.strongRecOn with
  | ind n ih =>
    rcases Nat.lt_or_ge n 10 with h | h
    · rcases Nat.eq_zero_or_pos n with rfl | hp
      · exact .inl rfl
      · refine .inr ⟨CodePoint.ofChar n.digitChar, [], ?_, ?_, ?_, by simp⟩
        · rw [ofNat, Nat.toDigits_of_lt_base h]
          rfl
        · intro he
          have := CodePoint.eq_ofChar.mp he
          rw [CodePoint.ofChar_val, Nat.toNat_digitChar_of_lt_ten h] at this
          have : 48 + n = 48 := this
          omega
        · exact isDigit_ofChar (by simp [h])
    · have hs : ofNat n = ofNat (n / 10) ++ [CodePoint.ofChar (n % 10).digitChar] := by
        rw [ofNat, Nat.toDigits_of_base_le (by decide) h, List.map_append]
        rfl
      have hd : (CodePoint.ofChar (n % 10).digitChar).isDigit = true :=
        isDigit_ofChar (by simp [Nat.mod_lt])
      rcases ih (n / 10) (by omega) with hz | ⟨d, rest, he, h0, hdig, hall⟩
      · have := digitsValue_ofNat (n / 10)
        rw [hz] at this
        have : n / 10 = 0 := this.symm
        omega
      · refine .inr ⟨d, rest ++ [CodePoint.ofChar (n % 10).digitChar], by rw [hs, he]; rfl, h0, hdig, ?_⟩
        intro c hc
        rcases List.mem_append.mp hc with hc | hc
        · exact hall c hc
        · rwa [List.mem_singleton.mp hc]

lemma foldl_digits_lt {t : Text} (ht : ∀ c ∈ t, c.isDigit = true) (init : Nat) :
    t.foldl (fun n c => 10 * n + c.digit) init < 10 ^ t.length * (init + 1) := by
  induction t generalizing init with
  | nil => simp
  | cons c t ih =>
    have hc := ht c (by simp)
    simp only [CodePoint.isDigit, Bool.and_eq_true, decide_eq_true_eq] at hc
    have hd : c.digit < 10 := by
      rw [CodePoint.digit]
      omega
    have hi := ih (fun d hd => ht d (by simp [hd])) (10 * init + c.digit)
    rw [List.foldl_cons, List.length_cons, pow_succ]
    calc _ < 10 ^ t.length * (10 * init + c.digit + 1) := hi
      _ ≤ 10 ^ t.length * (10 * (init + 1)) := Nat.mul_le_mul_left _ (by omega)
      _ = 10 ^ t.length * 10 * (init + 1) := by ring

theorem digitsValue_lt {t : Text} (ht : ∀ c ∈ t, c.isDigit = true) : digitsValue t < 10 ^ t.length := by
  simpa [digitsValue] using foldl_digits_lt ht 0

/-! ### A fixed number of digits -/

theorem length_padZeros {width n : Nat} (hw : 0 < width) (hn : n < 10 ^ width) :
    (padZeros width n).length = width := by
  have := (length_ofNat_le hw).mpr hn
  rw [padZeros]
  simp only [List.length_append, List.length_replicate]
  omega

theorem isDigit_of_mem_padZeros {width n : Nat} {c : CodePoint} (hc : c ∈ padZeros width n) :
    c.isDigit = true := by
  rcases List.mem_append.mp hc with hc | hc
  · rw [(List.mem_replicate.mp hc).2]
    decide
  · exact isDigit_of_mem_ofNat hc

theorem digitsValue_padZeros (width n : Nat) : digitsValue (padZeros width n) = n := by
  have hz (k : Nat) : (List.replicate k (CodePoint.ofChar '0')).foldl
      (fun n c => 10 * n + c.digit) 0 = 0 := by
    induction k with
    | zero => rfl
    | succ k ih => exact ih
  rw [padZeros, digitsValue, List.foldl_append, hz]
  exact digitsValue_ofNat n

end CommandWrap.Text

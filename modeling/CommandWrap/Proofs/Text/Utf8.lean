import Mathlib
import CommandWrap.Text.Utf8
import CommandWrap.Proofs.Except
import CommandWrap.Proofs.Text.CodePoint

/-! ASCII reads back from its bytes, and bytes never stand for surrogates. -/
namespace CommandWrap.Utf8

lemma encode_append (s t : Text) : encode (s ++ t) = encode s ++ encode t := List.flatMap_append

lemma encodeError_eq_none_iff {kept : CodePoint → Bool} {position : Nat} {t : Text} :
    encodeError? kept position t = none ↔ ∀ c ∈ t, (c.isSurrogate && !kept c) = false := by
  induction t generalizing position with
  | nil => simp [encodeError?]
  | cons c t ih =>
    rw [encodeError?, List.forall_mem_cons]
    cases hc : (c.isSurrogate && !kept c) with
    | true => simp
    | false => simp only [Bool.false_eq_true, if_false, ih, true_and]

lemma decodeFrom_ascii (position : Nat) {t : Text} (ht : ∀ c ∈ t, c.isAscii = true) :
    decodeFrom position (encode t) = .ok t := by
  induction t generalizing position with
  | nil => rfl
  | cons c t ih =>
    have hc : c.val < 0x80 := by simpa [CodePoint.isAscii] using ht c List.mem_cons_self
    have hbyte : (UInt8.ofNat c.val).toNat = c.val := by
      rw [UInt8.toNat_ofNat']
      omega
    have hlead : UInt8.ofNat c.val < 0x80 := by
      rw [UInt8.lt_iff_toNat_lt, hbyte]
      exact hc
    have hencode : encode (c :: t) = UInt8.ofNat c.val :: encode t := by
      rw [encode, List.flatMap_cons, encodeCodePoint, if_pos hc]
      rfl
    rw [hencode, decodeFrom.eq_def]
    dsimp only
    rw [if_pos hlead, ih _ fun d hd => ht d (List.mem_cons_of_mem _ hd), hbyte, CodePoint.ofNat_val]
    rfl

theorem decode_ascii {t : Text} (ht : ∀ c ∈ t, c.isAscii = true) : decode (encode t) = .ok t :=
  decodeFrom_ascii 0 ht

/-! ### Decoded texts -/

lemma isSurrogate_ofNat {n : Nat} (hn : n < 0xD800 ∨ 0xDFFF < n) : (CodePoint.ofNat n).isSurrogate = false := by
  by_cases hbound : n < 0x110000
  · simp only [CodePoint.isSurrogate, CodePoint.val_ofNat hbound, Bool.and_eq_false_iff,
      decide_eq_false_iff_not]
    omega
  · rw [CodePoint.ofNat, dif_neg hbound]
    decide

lemma isContinuation_iff {b : UInt8} : isContinuation b = true ↔ 0x80 ≤ b.toNat ∧ b.toNat ≤ 0xBF := by
  simp [isContinuation, UInt8.le_iff_toNat_le]

/-- The second byte keeps a sequence of three free of surrogates, and one of four beyond them. -/
lemma secondByteFits_bounds {lead b : UInt8} (h : secondByteFits lead b = true) :
    (0x80 ≤ b.toNat ∧ b.toNat ≤ 0xBF) ∧ (lead.toNat = 0xED → b.toNat < 0xA0) ∧
      (lead.toNat = 0xF0 → 0x90 ≤ b.toNat) := by
  simp only [secondByteFits, Bool.and_eq_true, Bool.or_eq_true, bne_iff_ne, decide_eq_true_eq, ne_eq,
    UInt8.le_iff_toNat_le, UInt8.lt_iff_toNat_lt, isContinuation_iff, ← UInt8.toNat_inj] at h
  obtain ⟨⟨⟨⟨hcontinuation, -⟩, hed⟩, hf0⟩, -⟩ := h
  exact ⟨hcontinuation, fun hlead => hed.resolve_left (not_not_intro hlead),
    fun hlead => hf0.resolve_left (not_not_intro hlead)⟩

lemma isScalar_of_map {c : CodePoint} {r : Except DecodeError Text} {t : Text}
    (h : r.map (c :: ·) = .ok t) (hc : c.isSurrogate = false) (hr : ∀ {t : Text}, r = .ok t → t.IsScalar) :
    t.IsScalar := by
  cases r with
  | error e => simp [Except.map] at h
  | ok rest =>
    obtain rfl : c :: rest = t := Except.ok.inj h
    intro d hd
    rcases List.mem_cons.mp hd with rfl | hd
    · exact hc
    · exact hr rfl d hd

lemma decodeFrom_isScalar {position : Nat} {bytes : Bytes} {t : Text}
    (h : decodeFrom position bytes = .ok t) : t.IsScalar := by
  fun_induction decodeFrom position bytes generalizing t with
  | case1 =>
    obtain rfl : [] = t := Except.ok.inj h
    simp [Text.IsScalar]
  -- Sequences of one to four bytes; the bounds on the second byte keep surrogates out.
  | case2 position lead rest hlead ih =>
    refine isScalar_of_map h (isSurrogate_ofNat ?_) ih
    have := lead.toNat_lt
    omega
  | case6 position lead hlow hrange b rest hb hlead ih =>
    refine isScalar_of_map h (isSurrogate_ofNat ?_) ih
    have hbounds := secondByteFits_bounds (by simpa using hb)
    simp only [UInt8.lt_iff_toNat_lt] at hlead
    simp only [List.foldl_cons, List.foldl_nil]
    have : (224 : UInt8).toNat = 224 := rfl
    omega
  | case9 position lead hlow hrange b hb hthree c rest hc hlead ih =>
    refine isScalar_of_map h (isSurrogate_ofNat ?_) ih
    have hbounds := secondByteFits_bounds (by simpa using hb)
    have hc := isContinuation_iff.mp (by simpa using hc)
    simp only [UInt8.lt_iff_toNat_lt] at hlead hthree
    simp only [List.foldl_cons, List.foldl_nil]
    have : (224 : UInt8).toNat = 224 := rfl
    have : (240 : UInt8).toNat = 240 := rfl
    omega
  | case12 position lead hlow hrange b hb hthree c hc hfour d rest hd ih =>
    refine isScalar_of_map h (isSurrogate_ofNat ?_) ih
    have hbounds := secondByteFits_bounds (by simpa using hb)
    have hc := isContinuation_iff.mp (by simpa using hc)
    have hd := isContinuation_iff.mp (by simpa using hd)
    simp only [UInt8.lt_iff_toNat_lt] at hfour
    simp only [List.foldl_cons, List.foldl_nil]
    have : (240 : UInt8).toNat = 240 := rfl
    omega
  | case3 | case4 | case5 | case7 | case8 | case10 | case11 => simp_all

/-- What is decoded holds characters only. -/
theorem decode_isScalar {bytes : Bytes} {t : Text} (h : decode bytes = .ok t) : t.IsScalar :=
  decodeFrom_isScalar h

/-! ### Bytes behind others -/

/-- What decodes anywhere decodes behind other bytes. -/
lemma decodeFrom_append {position : Nat} {bytes more : Bytes} {t s : Text}
    (h : decodeFrom position bytes = .ok t) (hmore : ∀ position, decodeFrom position more = .ok s) :
    decodeFrom position (bytes ++ more) = .ok (t ++ s) := by
  fun_induction decodeFrom position bytes generalizing t with
  | case1 position =>
    obtain rfl : [] = t := Except.ok.inj h
    exact hmore position
  | case2 position lead rest hlead ih =>
    obtain ⟨behind, hbehind, rfl⟩ := map_eq_ok h
    rw [List.cons_append, decodeFrom.eq_def]
    dsimp only
    rw [if_pos hlead, ih hbehind]
    rfl
  | case6 position lead hlow hrange b rest hb hlead ih =>
    obtain ⟨behind, hbehind, rfl⟩ := map_eq_ok h
    rw [List.cons_append, List.cons_append, decodeFrom.eq_def]
    dsimp only
    rw [if_neg hlow, if_neg hrange, if_neg hb, if_pos hlead, ih hbehind]
    rfl
  | case9 position lead hlow hrange b hb hthree c rest hc hlead ih =>
    obtain ⟨behind, hbehind, rfl⟩ := map_eq_ok h
    rw [List.cons_append, List.cons_append, List.cons_append, decodeFrom.eq_def]
    dsimp only
    rw [if_neg hlow, if_neg hrange, if_neg hb, if_neg hthree, if_neg hc, if_pos hlead, ih hbehind]
    rfl
  | case12 position lead hlow hrange b hb hthree c hc hfour d rest hd ih =>
    obtain ⟨behind, hbehind, rfl⟩ := map_eq_ok h
    rw [List.cons_append, List.cons_append, List.cons_append, List.cons_append, decodeFrom.eq_def]
    dsimp only
    rw [if_neg hlow, if_neg hrange, if_neg hb, if_neg hthree, if_neg hc, if_neg hfour, if_neg hd,
      ih hbehind]
    rfl
  | case3 | case4 | case5 | case7 | case8 | case10 | case11 => cases h

end CommandWrap.Utf8

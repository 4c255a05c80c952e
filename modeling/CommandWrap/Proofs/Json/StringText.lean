import Mathlib
import CommandWrap.Json.Parser
import CommandWrap.Json.Printer
import CommandWrap.Proofs.Text.CodePoint

/-! Strings of a JSON document: what is written between the quotes reads back as the same text, as
long as its surrogates are joined. -/
namespace CommandWrap.Json

/-! ### Numeric escapes -/

lemma hexDigit_digitChar : ∀ d < 16, hexDigit? (CodePoint.ofChar (Nat.digitChar d)) = some d := by
  decide

lemma hex_four (n : Nat) : Text.hex 4 n =
    [CodePoint.ofChar (Nat.digitChar (n / 4096 % 16)), CodePoint.ofChar (Nat.digitChar (n / 256 % 16)),
      CodePoint.ofChar (Nat.digitChar (n / 16 % 16)), CodePoint.ofChar (Nat.digitChar (n % 16))] := by
  simp [Text.hex, Nat.div_div_eq_div_mul]

lemma hex4_digits {n : Nat} (hn : n < 0x10000) :
    hex4? (CodePoint.ofChar (Nat.digitChar (n / 4096 % 16)))
      (CodePoint.ofChar (Nat.digitChar (n / 256 % 16))) (CodePoint.ofChar (Nat.digitChar (n / 16 % 16)))
      (CodePoint.ofChar (Nat.digitChar (n % 16))) = some (.ofNat n) := by
  have hd (m : Nat) : hexDigit? (CodePoint.ofChar (Nat.digitChar (m % 16))) = some (m % 16) :=
    hexDigit_digitChar _ (Nat.mod_lt _ (by decide))
  have he : n / 4096 % 16 * 4096 + n / 256 % 16 * 256 + n / 16 % 16 * 16 + n % 16 = n := by omega
  rw [hex4?, hd, hd, hd, hd]
  exact congrArg (fun m => some (CodePoint.ofNat m)) he

lemma stringRest_unicodeEscape (opening : Text) (read : List Unit) {n : Nat} (hn : n < 0x10000)
    (next : CodePoint) (more : Text) :
    stringRest opening read (unicodeEscape n ++ next :: more) =
      stringRest opening (.escaped (.ofNat n) :: read) (next :: more) := by
  rw [unicodeEscape, hex_four]
  simp only [List.cons_append, List.nil_append]
  rw [stringRest.eq_def]
  dsimp only
  rw [if_neg (by decide), if_pos rfl, if_pos rfl, hex4_digits hn]

/-! ### Escapes -/

lemma stringRest_short (opening : Text) (read : List Unit) {e d : CodePoint} (he : e ≠ 'u')
    (hd : shortEscape? e = some d) (behind : Text) :
    stringRest opening read (CodePoint.ofChar '\\' :: e :: behind) =
      stringRest opening (.plain d :: read) behind := by
  rw [stringRest.eq_def]
  dsimp only
  rw [if_neg (by decide), if_pos rfl, if_neg he, hd]

lemma stringRest_plain (opening : Text) (read : List Unit) {c : CodePoint} (hq : c ≠ '"')
    (hb : c ≠ '\\') (hc : 0x20 ≤ c.val) (rest : Text) :
    stringRest opening read (c :: rest) = stringRest opening (.plain c :: read) rest := by
  rw [stringRest.eq_def]
  dsimp only
  rw [if_neg hq, if_neg hb, if_neg (by omega)]

lemma stringRest_quote (opening : Text) (read : List Unit) (rest : Text) :
    stringRest opening read (CodePoint.ofChar '"' :: rest) = .ok (joinUnits read.reverse, rest) := by
  rw [stringRest.eq_def]
  dsimp only
  rw [if_pos rfl]

/-- The four ways in which a code point is written in a string. -/
lemma escaped_cases (c : CodePoint) :
    (∃ e : CodePoint, escaped c = [CodePoint.ofChar '\\', e] ∧ e ≠ 'u' ∧ shortEscape? e = some c) ∨
    (escaped c = [c] ∧ c ≠ '"' ∧ c ≠ '\\' ∧ c.IsVisible) ∨
    (escaped c = unicodeEscape c.val ∧ c.val < 0x10000) ∨
    (escaped c = unicodeEscape (0xD800 + (c.val - 0x10000) / 0x400) ++
      unicodeEscape (0xDC00 + (c.val - 0x10000) % 0x400) ∧ 0x10000 ≤ c.val) := by
  unfold escaped
  -- The signs with an escape of their own come first, then those that show, then one unit or two.
  by_cases h1 : c = '"'
  · rw [if_pos h1]
    exact .inl ⟨'"', rfl, by decide, by rw [h1]; decide⟩
  rw [if_neg h1]
  by_cases h2 : c = '\\'
  · rw [if_pos h2]
    exact .inl ⟨'\\', rfl, by decide, by rw [h2]; decide⟩
  rw [if_neg h2]
  by_cases h3 : c = '\n'
  · rw [if_pos h3]
    exact .inl ⟨'n', rfl, by decide, by rw [h3]; decide⟩
  rw [if_neg h3]
  by_cases h4 : c = '\r'
  · rw [if_pos h4]
    exact .inl ⟨'r', rfl, by decide, by rw [h4]; decide⟩
  rw [if_neg h4]
  by_cases h5 : c = '\t'
  · rw [if_pos h5]
    exact .inl ⟨'t', rfl, by decide, by rw [h5]; decide⟩
  rw [if_neg h5]
  by_cases h6 : c = '\x08'
  · rw [if_pos h6]
    exact .inl ⟨'b', rfl, by decide, by rw [h6]; decide⟩
  rw [if_neg h6]
  by_cases h7 : c = '\x0C'
  · rw [if_pos h7]
    exact .inl ⟨'f', rfl, by decide, by rw [h7]; decide⟩
  rw [if_neg h7]
  by_cases h8 : 0x20 ≤ c.val ∧ c.val < 0x7F
  · rw [if_pos h8]
    exact .inr (.inl ⟨rfl, h1, h2, h8⟩)
  rw [if_neg h8]
  by_cases h9 : c.val < 0x10000
  · rw [if_pos h9]
    exact .inr (.inr (.inl ⟨rfl, h9⟩))
  · rw [if_neg h9]
    exact .inr (.inr (.inr ⟨rfl, by omega⟩))

/-- The units start with the escape of a low surrogate. -/
def startsLow : List Unit → Bool
  | .escaped c :: _ => c.isLowSurrogate
  | _ => false

lemma joinUnits_escaped (c : CodePoint) (units : List Unit)
    (h : c.isHighSurrogate = true → startsLow units = false) :
    joinUnits (.escaped c :: units) = c :: joinUnits units := by
  cases units with
  | nil => simp [joinUnits]
  | cons u units =>
    cases u with
    | plain d => simp [joinUnits]
    | escaped d =>
      rw [joinUnits, if_neg]
      simpa [startsLow] using h

/-- The units that the escape of a code point is read as stand for that code point. -/
lemma escaped_read (c : CodePoint) : ∃ units,
    (∀ opening read next more, stringRest opening read (escaped c ++ next :: more) =
      stringRest opening (units.reverse ++ read) (next :: more)) ∧
    (∀ behind, (c.isHighSurrogate = true → startsLow behind = false) →
      joinUnits (units ++ behind) = c :: joinUnits behind) ∧
    (startsLow units = true → c.isLowSurrogate = true) := by
  have hc := c.lt
  obtain ⟨e, he, hu, hs⟩ | ⟨he, hq, hb, hv, -⟩ | ⟨he, hn⟩ | ⟨he, hn⟩ := escaped_cases c
  · refine ⟨[.plain c], fun opening read next more => ?_, fun _ _ => by simp [joinUnits],
      by simp [startsLow]⟩
    rw [he]
    exact stringRest_short opening read hu hs (next :: more)
  · refine ⟨[.plain c], fun opening read next more => ?_, fun _ _ => by simp [joinUnits],
      by simp [startsLow]⟩
    rw [he]
    exact stringRest_plain opening read hq hb hv (next :: more)
  · refine ⟨[.escaped c], fun opening read next more => ?_,
      fun behind h => joinUnits_escaped c behind h, by simp [startsLow]⟩
    rw [he, stringRest_unicodeEscape _ _ hn, CodePoint.ofNat_val]
    rfl
  · set high : CodePoint := .ofNat (0xD800 + (c.val - 0x10000) / 0x400) with hhigh
    set low : CodePoint := .ofNat (0xDC00 + (c.val - 0x10000) % 0x400) with hlow
    have vh : high.val = 0xD800 + (c.val - 0x10000) / 0x400 := CodePoint.val_ofNat (by omega)
    have vl : low.val = 0xDC00 + (c.val - 0x10000) % 0x400 := CodePoint.val_ofNat (by omega)
    refine ⟨[.escaped high, .escaped low], fun opening read next more => ?_, fun behind _ => ?_, ?_⟩
    · obtain ⟨d, rest, hd⟩ : ∃ d rest,
          unicodeEscape (0xDC00 + (c.val - 0x10000) % 0x400) ++ next :: more = d :: rest := ⟨_, _, rfl⟩
      rw [he, List.append_assoc, hd, stringRest_unicodeEscape _ _ (by omega), ← hd,
        stringRest_unicodeEscape _ _ (by omega)]
      rfl
    · have hj : joinSurrogates high low = c := by
        rw [joinSurrogates, vh, vl, CodePoint.eq_iff_val, CodePoint.val_ofNat (by omega)]
        omega
      have hp : (high.isHighSurrogate && low.isLowSurrogate) = true := by
        simp only [CodePoint.isHighSurrogate, CodePoint.isLowSurrogate, vh, vl, Bool.and_eq_true,
          decide_eq_true_eq]
        omega
      simp only [List.cons_append, List.nil_append]
      rw [joinUnits, if_pos hp, hj]
    · intro h
      simp only [startsLow, CodePoint.isLowSurrogate, vh, Bool.and_eq_true, decide_eq_true_eq] at h
      omega

/-! ### Strings -/

lemma startsLow_append {front behind : List Unit} (hf : front ≠ []) :
    startsLow (front ++ behind) = startsLow front := by
  cases front with
  | nil => contradiction
  | cons u front => cases u <;> rfl

/-- In a joined text no high surrogate is read right before the escape of a low one. -/
lemma stringRest_escapes (t : Text) (ht : t.Joined) : ∃ units, joinUnits units = t ∧
    (startsLow units = true → ∃ c ∈ t.head?, c.isLowSurrogate = true) ∧
    ∀ opening read rest,
      stringRest opening read (t.flatMap escaped ++ CodePoint.ofChar '"' :: rest) =
        .ok (joinUnits (read.reverse ++ units), rest) := by
  induction t with
  | nil =>
    refine ⟨[], rfl, by simp [startsLow], fun opening read rest => ?_⟩
    rw [List.flatMap_nil, List.nil_append, stringRest_quote, List.append_nil]
  | cons c t ih =>
    obtain ⟨units, hj, hs, hr⟩ := ih ht.tail
    obtain ⟨front, hread, hjoin, hlow⟩ := escaped_read c
    have hsep : c.isHighSurrogate = true → startsLow units = false := by
      intro hc
      by_contra h
      obtain ⟨d, hd, hl⟩ := hs (by simpa using h)
      obtain ⟨t, rfl⟩ : ∃ u, t = d :: u := by
        cases t with
        | nil => simp at hd
        | cons e t => exact ⟨t, by simp at hd; rw [hd]⟩
      exact (List.isChain_cons_cons.mp ht).1 ⟨hc, hl⟩
    have hf : front ≠ [] := by
      rintro rfl
      simpa [joinUnits] using hjoin [] fun _ => rfl
    refine ⟨front ++ units, by rw [hjoin _ hsep, hj], fun h => ?_, fun opening read rest => ?_⟩
    · rw [startsLow_append hf] at h
      exact ⟨c, rfl, hlow h⟩
    · obtain ⟨d, more, hd⟩ : ∃ d more,
          t.flatMap escaped ++ CodePoint.ofChar '"' :: rest = d :: more := by
        cases t.flatMap escaped with
        | nil => exact ⟨_, _, rfl⟩
        | cons d more => exact ⟨_, _, rfl⟩
      rw [List.flatMap_cons, List.append_assoc, hd, hread, ← hd, hr]
      simp

/-- A joined text reads back. -/
theorem stringRest_stringText {t : Text} (ht : t.Joined) (opening rest : Text) :
    stringRest opening [] (t.flatMap escaped ++ CodePoint.ofChar '"' :: rest) = .ok (t, rest) := by
  obtain ⟨units, hj, -, hr⟩ := stringRest_escapes t ht
  simp [hr, hj]

/-! ### What a string can hold -/

lemma startsLow_of_joinUnits {units : List Unit} {c : CodePoint}
    (hs : ∀ d, .plain d ∈ units → d.isSurrogate = false) (hc : c ∈ (joinUnits units).head?)
    (hl : c.isLowSurrogate = true) : startsLow units = true := by
  fun_cases joinUnits units with
  | case1 => simp [joinUnits] at hc
  | case2 d rest =>
    simp only [joinUnits, List.head?_cons, Option.mem_def, Option.some.injEq] at hc
    have := hs d (by simp)
    rw [hc, Bool.eq_false_iff, ne_eq, CodePoint.isSurrogate_iff] at this
    exact absurd (.inr hl) this
  | case3 high low rest h =>
    simp only [joinUnits, h, if_true, List.head?_cons, Option.mem_def, Option.some.injEq] at hc
    simp only [Bool.and_eq_true, CodePoint.isHighSurrogate, CodePoint.isLowSurrogate,
      decide_eq_true_eq] at h
    -- The pair is joined to a code point beyond the surrogates.
    rw [← hc, CodePoint.isLowSurrogate, joinSurrogates, CodePoint.val_ofNat (by omega)] at hl
    simp only [Bool.and_eq_true, decide_eq_true_eq] at hl
    omega
  | case4 high low rest h =>
    simp only [joinUnits, h, Bool.false_eq_true, if_false, List.head?_cons, Option.mem_def,
      Option.some.injEq] at hc
    rw [startsLow, hc, hl]
  | case5 d rest hne =>
    have hstarts : startsLow rest = false := by
      cases rest with
      | nil => rfl
      | cons u more =>
        cases u with
        | plain d => rfl
        | escaped low => exact (hne low more rfl).elim
    rw [joinUnits_escaped _ _ fun _ => hstarts] at hc
    simp only [List.head?_cons, Option.mem_def, Option.some.injEq] at hc
    rw [startsLow, hc, hl]

lemma joined_cons {c : CodePoint} {t : Text} (ht : t.Joined)
    (h : c.isHighSurrogate = true → ∀ d ∈ t.head?, d.isLowSurrogate = false) :
    Text.Joined (c :: t) := by
  refine List.isChain_cons.mpr ⟨fun d hd hh => ?_, ht⟩
  rw [h hh.1 d hd] at hh
  simp at hh

/-- Neighbouring escapes of a surrogate pair are joined, so no such pair is left. -/
lemma joinUnits_joined {units : List Unit} (hs : ∀ d, .plain d ∈ units → d.isSurrogate = false) :
    (joinUnits units).Joined := by
  fun_induction joinUnits units with
  | case1 => exact List.isChain_nil
  | case2 c rest ih =>
    refine joined_cons (ih fun d hd => hs d (by simp [hd])) fun hc => ?_
    have := hs c (by simp)
    rw [Bool.eq_false_iff, ne_eq, CodePoint.isSurrogate_iff] at this
    exact absurd (.inl hc) this
  | case3 high low rest h ih =>
    refine joined_cons (ih fun d hd => hs d (by simp [hd])) fun hc => ?_
    simp only [Bool.and_eq_true, CodePoint.isHighSurrogate, CodePoint.isLowSurrogate,
      decide_eq_true_eq] at h
    rw [CodePoint.isHighSurrogate, joinSurrogates, CodePoint.val_ofNat (by omega)] at hc
    simp only [Bool.and_eq_true, decide_eq_true_eq] at hc
    omega
  | case4 high low rest h ih =>
    have hr : ∀ d, .plain d ∈ (Unit.escaped low :: rest) → d.isSurrogate = false :=
      fun d hd => hs d (by simp at hd; simp [hd])
    refine joined_cons (ih hr) fun hc d hd => ?_
    by_contra hl
    -- If the rest started with a low surrogate, the pair would have been joined.
    have := startsLow_of_joinUnits hr hd (by simpa using hl)
    simp_all [startsLow]
  | case5 c rest hne ih =>
    have hr : ∀ d, .plain d ∈ rest → d.isSurrogate = false := fun d hd => hs d (by simp [hd])
    refine joined_cons (ih hr) fun _ d hd => ?_
    by_contra hl
    have := startsLow_of_joinUnits hr hd (by simpa using hl)
    cases rest with
    | nil => simp [startsLow] at this
    | cons u rest =>
      cases u with
      | plain e => simp [startsLow] at this
      | escaped e => exact hne e rest rfl

end CommandWrap.Json

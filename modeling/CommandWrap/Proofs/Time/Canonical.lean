import Mathlib
import CommandWrap.Proofs.Time.RoundTrip

/-! What is read is a valid point in time, whatever form it was written in, and reads back from the one
form that is written. -/
namespace CommandWrap.Stamp

variable {t rest : Text} {negative colons : Bool}

/-! ### Times of day -/

lemma fraction_lt {f : Nat} (h : fraction? t = some (f, rest)) : f < 1000000 := by
  rw [fraction?] at h
  split_ifs at h with hdigits
  obtain ⟨rfl, -⟩ := Prod.mk.inj (Option.some.inj h)
  have hlength : (t.take 6).length ≤ 6 := List.length_take_le 6 t
  have hvalue := Text.digitsValue_lt (List.all_eq_true.mp hdigits.2)
  calc Text.digitsValue (t.take 6) * Nat.pow 10 (6 - (t.take 6).length)
      < 10 ^ (t.take 6).length * 10 ^ (6 - (t.take 6).length) :=
        Nat.mul_lt_mul_of_pos_right hvalue (Nat.pow_pos (by decide))
    _ = 1000000 := by rw [← Nat.pow_add, Nat.add_sub_cancel' hlength]

lemma clockRest_lt {read parts : List Nat} {left micro : Nat}
    (h : clockRest colons read left t = some (parts, micro, rest)) : micro < 1000000 := by
  have hfraction : ∀ {read : List Nat} {t : Text},
      ((fraction? t).map fun found => (read, found.1, found.2)) = some (parts, micro, rest) →
        micro < 1000000 := by
    intro read t h
    obtain ⟨⟨f, behind⟩, hf, hsame⟩ := Option.map_eq_some_iff.mp h
    cases hsame
    exact fraction_lt hf
  have hwhole : ∀ {read : List Nat} {t : Text}, some (read, 0, t) = some (parts, micro, rest) →
      micro < 1000000 := by
    rintro read t ⟨⟩
    decide
  fun_induction clockRest colons read left t with
  | case1 => exact hwhole h
  | case2 => exact hwhole h
  | case4 => exact hfraction h
  | case6 => exact hfraction h
  | case7 read c behind hne hmark hcolon next left ih =>
    obtain ⟨⟨n, after⟩, -, hmore⟩ := Option.bind_eq_some_iff.mp h
    exact ih n after hmore
  | case3 | case5 => cases h

lemma clock_micro_lt {c : Clock} (h : clock? t = some (c, rest)) : c.micro < 1000000 := by
  rw [clock?] at h
  obtain ⟨⟨hour, behind⟩, -, h⟩ := Option.bind_eq_some_iff.mp h
  obtain ⟨⟨read, micro, after⟩, hrest, h⟩ := Option.bind_eq_some_iff.mp h
  obtain ⟨rfl, -⟩ := Prod.mk.inj (Option.some.inj h)
  exact clockRest_lt hrest

lemma Clock.Valid.micros_lt {c : Clock} (hc : c.Valid) (hmicro : c.micro < 1000000) :
    c.micros < microsPerDay := by
  obtain ⟨hhour, hminute, hsecond⟩ := hc
  rw [Clock.micros, microsPerDay]
  omega

/-- An offset is less than a day and, unless there is none, at least a second, so that it is read back as
it is. -/
lemma offset_spec {o : Int} (h : offset? negative t = some o) :
    o.natAbs < microsPerDay ∧ readOffset o = o := by
  rw [offset?] at h
  obtain ⟨⟨c, behind⟩, -, h⟩ := Option.bind_eq_some_iff.mp h
  dsimp only at h
  split_ifs at h with hlong hshort hsign
  · obtain rfl := Option.some.inj h
    exact ⟨by decide, rfl⟩
  all_goals
    obtain rfl := Option.some.inj h
    have hday : c.micros < microsPerDay := Nat.lt_of_not_le fun h => hlong (.inr h)
    refine ⟨by omega, if_neg (by omega)⟩

lemma readTime_spec {micros : Nat} {offset : Option Int} (h : readTime? t = some (micros, offset)) :
    micros < microsPerDay ∧ ∀ o ∈ offset, o.natAbs < microsPerDay ∧ readOffset o = o := by
  rw [readTime?] at h
  obtain ⟨⟨c, behind⟩, hclock, h⟩ := Option.bind_eq_some_iff.mp h
  dsimp only at h
  by_cases hvalid : c.Valid
  · have hmicros := hvalid.micros_lt (clock_micro_lt hclock)
    rw [if_neg (not_not.mpr hvalid)] at h
    split at h
    · split_ifs at h
      obtain ⟨rfl, rfl⟩ := Prod.mk.inj (Option.some.inj h)
      exact ⟨hmicros, by simp⟩
    · split_ifs at h
      · obtain ⟨rfl, rfl⟩ := Prod.mk.inj (Option.some.inj h)
        refine ⟨hmicros, ?_⟩
        rintro _ ⟨⟩
        exact ⟨by decide, rfl⟩
      · obtain ⟨o, ho, hsame⟩ := Option.map_eq_some_iff.mp h
        obtain ⟨rfl, rfl⟩ := Prod.mk.inj hsame
        refine ⟨hmicros, ?_⟩
        rintro _ ⟨⟩
        exact offset_spec ho
  · rw [if_pos hvalid] at h
    cases h

/-! ### Dates -/

lemma valid_of? {year month day : Nat} {d : Date} (h : Date.of? year month day = some d) : d.Valid := by
  rw [Date.of?] at h
  split_ifs at h with hvalid
  exact Option.some.inj h ▸ hvalid

lemma valid_ofWeek? {year week day : Nat} {d : Date} (h : Date.ofWeek? year week day = some d) :
    d.Valid := by
  rw [Date.ofWeek?] at h
  dsimp only at h
  split_ifs at h with hweek hvalid
  exact Option.some.inj h ▸ hvalid

lemma exists_day {rest? : Option Text} {width : Nat} {date? : Nat → Option Date} {d : Date}
    (h : (rest?.bind fun rest => (number? width rest).bind fun read =>
      if read.2 = [] then date? read.1 else none) = some d) : ∃ day, date? day = some d := by
  obtain ⟨rest, -, h⟩ := Option.bind_eq_some_iff.mp h
  obtain ⟨⟨day, behind⟩, -, h⟩ := Option.bind_eq_some_iff.mp h
  dsimp only at h
  split_ifs at h
  exact ⟨day, h⟩

lemma valid_readDate? {d : Date} (h : readDate? t = some d) : d.Valid := by
  have hweek : ∀ {behind : Text} {year week : Nat} {day? : Option Date},
      (if behind = [] then Date.ofWeek? year week 1 else day?) = some d →
      (day? = some d → ∃ day, Date.ofWeek? year week day = some d) → d.Valid := by
    intro behind year week day? h hday
    split_ifs at h
    · exact valid_ofWeek? h
    · obtain ⟨day, h⟩ := hday h
      exact valid_ofWeek? h
  rw [readDate?] at h
  obtain ⟨⟨year, behindYear⟩, -, h⟩ := Option.bind_eq_some_iff.mp h
  dsimp only at h
  -- With dashes or without, the date is one of a week or of a month.
  split_ifs at h
  all_goals obtain ⟨⟨n, behind⟩, -, h⟩ := Option.bind_eq_some_iff.mp h
  · exact hweek h exists_day
  · obtain ⟨day, h⟩ := exists_day h
    exact valid_of? h
  · exact hweek h exists_day
  · obtain ⟨day, h⟩ := exists_day h
    exact valid_of? h

/-! ### Points in time -/

theorem parse_spec {s : Stamp} (h : parse? t = some s) :
    s.Valid ∧ s.offset.map readOffset = s.offset := by
  rw [parse?] at h
  obtain ⟨length, -, h⟩ := Option.bind_eq_some_iff.mp h
  obtain ⟨date, hdate, h⟩ := Option.bind_eq_some_iff.mp h
  have hvalid := valid_readDate? hdate
  split at h
  · obtain rfl := Option.some.inj h
    exact ⟨⟨hvalid, Nat.succ_pos _, by simp⟩, rfl⟩
  · obtain ⟨⟨micros, offset⟩, htime, rfl⟩ := Option.map_eq_some_iff.mp h
    obtain ⟨hmicros, hoffset⟩ := readTime_spec htime
    refine ⟨⟨hvalid, hmicros, fun o ho => (hoffset o ho).1⟩, ?_⟩
    cases offset with
    | none => rfl
    | some o => exact congrArg some (hoffset o rfl).2

end CommandWrap.Stamp

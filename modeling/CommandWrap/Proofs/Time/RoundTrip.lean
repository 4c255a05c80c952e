import Mathlib
import CommandWrap.Time.Iso
import CommandWrap.Proofs.Number.Decimal

/-! A point in time reads back from its written form, but for an offset of less than a second, which
is read as none at all. -/
namespace CommandWrap.Stamp

/-- A date of the calendar, a time within a day, and an offset of less than a day. -/
structure Valid (s : Stamp) : Prop where
  date : s.date.Valid
  micros : s.micros < microsPerDay
  offset : ∀ o ∈ s.offset, o.natAbs < microsPerDay

/-- An offset as it is read back. -/
def readOffset (o : Int) : Int := if o.natAbs < 1000000 then 0 else o

lemma number_padZeros {width n : Nat} (hw : 0 < width) (hn : n < 10 ^ width) (rest : Text) :
    number? width (Text.padZeros width n ++ rest) = some (n, rest) := by
  have hlength := Text.length_padZeros hw hn
  have htake : (Text.padZeros width n ++ rest).take width = Text.padZeros width n :=
    List.take_left' hlength
  have hdrop : (Text.padZeros width n ++ rest).drop width = rest := List.drop_left' hlength
  have hall : (Text.padZeros width n).all CodePoint.isDigit = true :=
    List.all_eq_true.mpr fun c hc => Text.isDigit_of_mem_padZeros hc
  rw [number?, htake, hdrop]
  rw [if_pos ⟨hlength, hall⟩, Text.digitsValue_padZeros]

/-! ### Times of day -/

lemma fraction_padZeros {n : Nat} (hn : n < 10 ^ 6) : fraction? (Text.padZeros 6 n) = some (n, []) := by
  have hlength := Text.length_padZeros (by decide) hn
  have hne : Text.padZeros 6 n ≠ [] := by
    intro h
    simp [h] at hlength
  have hall : (Text.padZeros 6 n).all CodePoint.isDigit = true :=
    List.all_eq_true.mpr fun c hc => Text.isDigit_of_mem_padZeros hc
  have htake : (Text.padZeros 6 n).take 6 = Text.padZeros 6 n :=
    List.take_of_length_le (by omega)
  have hdrop : (Text.padZeros 6 n).drop 6 = [] := List.drop_of_length_le (by omega)
  rw [fraction?, htake, hdrop]
  rw [if_pos ⟨hne, hall⟩, Text.digitsValue_padZeros, hlength]
  simp [upToNull]

lemma clockRest_component (read : List Nat) (left : Nat) {n : Nat} (hn : n < 100) (rest : Text) :
    clockRest true read (left + 1) (CodePoint.ofChar ':' :: (Text.padZeros 2 n ++ rest)) =
      clockRest true (read ++ [n]) left rest := by
  have hne : Text.padZeros 2 n ++ rest ≠ [] := by
    have : (Text.padZeros 2 n).length = 2 := Text.length_padZeros (by decide) hn
    intro h
    rw [(List.append_eq_nil_iff.mp h).1] at this
    simp at this
  rw [clockRest.eq_def]
  dsimp only
  rw [if_neg hne, if_neg (by decide), if_neg (by decide), if_pos rfl,
    number_padZeros (by decide) hn]
  rfl

lemma clockRest_fraction (read : List Nat) (left : Nat) {n : Nat} (hn : n < 10 ^ 6) :
    clockRest true read left (CodePoint.ofChar '.' :: Text.padZeros 6 n) = some (read, n, []) := by
  have hne : Text.padZeros 6 n ≠ [] := by
    have : (Text.padZeros 6 n).length = 6 := Text.length_padZeros (by decide) hn
    intro h
    simp [h] at this
  rw [clockRest.eq_def]
  dsimp only
  rw [if_neg hne, if_pos (by decide), fraction_padZeros hn]
  rfl

/-- What is written behind hours and minutes. -/
def secondsText (seconds : Bool) (second micro : Nat) : Text :=
  (if seconds || second ≠ 0 || micro ≠ 0 then ":" ++ Text.padZeros 2 second else []) ++
    (if micro ≠ 0 then "." ++ Text.padZeros 6 micro else [])

/-- Seconds that are not written are zero. -/
lemma clockRest_secondsText (seconds : Bool) (minute : Nat) {second micro : Nat} (hs : second < 60)
    (hm : micro < 1000000) :
    ∃ read, clockRest true [minute] 1 (secondsText seconds second micro) = some (read, micro, []) ∧
      read.getD 0 0 = minute ∧ read.getD 1 0 = second := by
  by_cases hmicro : micro = 0
  · subst hmicro
    by_cases hwritten : (seconds || decide (second ≠ 0)) = true
    · have htext : secondsText seconds second 0 =
          CodePoint.ofChar ':' :: (Text.padZeros 2 second ++ []) := by
        rw [secondsText, if_pos (by rw [hwritten]; rfl), if_neg (by simp)]
        simp [Text.ofString]
      exact ⟨[minute, second], by rw [htext, clockRest_component _ _ (by omega)]; rfl, rfl, rfl⟩
    · simp only [ne_eq, decide_not, Bool.or_eq_true, not_or, Bool.not_eq_true, Bool.not_eq_false',
        decide_eq_true_eq] at hwritten
      obtain ⟨rfl, rfl⟩ := hwritten
      exact ⟨[minute], rfl, rfl, rfl⟩
  · have htext : secondsText seconds second micro = CodePoint.ofChar ':' ::
        (Text.padZeros 2 second ++ CodePoint.ofChar '.' :: Text.padZeros 6 micro) := by
      rw [secondsText, if_pos (by simp [hmicro]), if_pos hmicro]
      simp [Text.ofString]
    exact ⟨[minute, second], by rw [htext, clockRest_component _ _ (by omega),
      clockRest_fraction _ _ hm]; rfl, rfl, rfl⟩

lemma clock_of_number {t rest : Text} {hour : Nat} (h : number? 2 t = some (hour, rest)) :
    clock? t = (clockRest (decide (rest.head? = some (CodePoint.ofChar ':'))) [] 2 rest).map
      fun (read, micro, rest) => (⟨hour, read.getD 0 0, read.getD 1 0, micro⟩, rest) := by
  rw [clock?, h, Option.bind_eq_bind, Option.bind_some, Option.map_eq_bind]
  rfl

lemma clock_clockText (seconds : Bool) {micros : Nat} (hm : micros < microsPerDay) :
    ∃ c, clock? (clockText seconds micros) = some (c, []) ∧ c.Valid ∧ c.micros = micros := by
  rw [microsPerDay] at hm
  have htext : clockText seconds micros = Text.padZeros 2 (micros / 1000000 / 3600) ++
      CodePoint.ofChar ':' :: (Text.padZeros 2 (micros / 1000000 / 60 % 60) ++
        secondsText seconds (micros / 1000000 % 60) (micros % 1000000)) := by
    simp [clockText, secondsText, Text.ofString]
  obtain ⟨read, hread, hminute, hsecond⟩ := clockRest_secondsText seconds
    (micros / 1000000 / 60 % 60) (Nat.mod_lt (micros / 1000000) (by decide : 0 < 60))
    (Nat.mod_lt micros (by decide : 0 < 1000000))
  refine ⟨⟨micros / 1000000 / 3600, read.getD 0 0, read.getD 1 0, micros % 1000000⟩, ?_, ?_, ?_⟩
  · rw [htext, clock_of_number (number_padZeros (by decide) (by omega) _),
      decide_eq_true (List.head?_cons ..), clockRest_component _ _ (by omega), List.nil_append,
      hread]
    rfl
  · rw [hminute, hsecond, Clock.Valid]
    dsimp only
    omega
  · rw [hminute, hsecond, Clock.micros]
    dsimp only
    omega

/-! ### Offsets -/

lemma offset_clockText (negative : Bool) {micros : Nat} (hm : micros < microsPerDay) :
    offset? negative (clockText false micros) = some
      (if micros < 1000000 then 0 else if negative then -(micros : Int) else micros) := by
  obtain ⟨c, hc, -, rfl⟩ := clock_clockText false hm
  have hday : ¬ (([] : Text) ≠ [] ∨ microsPerDay ≤ c.micros) := by
    rintro (hrest | hlong)
    · exact hrest rfl
    · exact absurd hm (Nat.not_lt.mpr hlong)
  rw [offset?, hc, Option.bind_eq_bind, Option.bind_some]
  dsimp only
  rw [if_neg hday]
  by_cases hsecond : c.micros < 1000000
  · rw [if_pos hsecond, if_pos hsecond]
  · rw [if_neg hsecond, if_neg hsecond]

lemma mem_clockText {seconds : Bool} {micros : Nat} {c : CodePoint} (hc : c ∈ clockText seconds micros) :
    c.isDigit = true ∨ c = CodePoint.ofChar ':' ∨ c = CodePoint.ofChar '.' := by
  have hpad : ∀ width n : Nat, ∀ d ∈ Text.padZeros width n,
      d.isDigit = true ∨ d = CodePoint.ofChar ':' ∨ d = CodePoint.ofChar '.' := fun width n d hd =>
    .inl (Text.isDigit_of_mem_padZeros hd)
  have hcolon : ∀ d ∈ Text.ofString ":",
      d.isDigit = true ∨ d = CodePoint.ofChar ':' ∨ d = CodePoint.ofChar '.' := by decide
  have hpoint : ∀ d ∈ Text.ofString ".",
      d.isDigit = true ∨ d = CodePoint.ofChar ':' ∨ d = CodePoint.ofChar '.' := by decide
  revert c
  simp only [clockText, List.forall_mem_append]
  refine ⟨⟨⟨⟨hpad _ _, hcolon⟩, hpad _ _⟩, ?_⟩, ?_⟩
  · split_ifs
    · exact List.forall_mem_append.mpr ⟨hcolon, hpad _ _⟩
    · simp
  · split_ifs
    · exact List.forall_mem_append.mpr ⟨hpoint, hpad _ _⟩
    · simp

lemma not_isOffsetMark_clockText {seconds : Bool} {micros : Nat} {c : CodePoint}
    (hc : c ∈ clockText seconds micros) : isOffsetMark c = false := by
  rcases mem_clockText hc with h | rfl | rfl
  · by_contra hmark
    simp only [Bool.not_eq_false, isOffsetMark, Bool.or_eq_true, decide_eq_true_eq] at hmark
    rcases hmark with (rfl | rfl) | rfl <;> revert h <;> decide
  · decide
  · decide

lemma readTime_clockText {micros : Nat} (hm : micros < microsPerDay) (offset : Option Int)
    (ho : ∀ o ∈ offset, o.natAbs < microsPerDay) :
    readTime? (clockText true micros ++ (offset.map offsetText).getD []) =
      some (micros, offset.map readOffset) := by
  obtain ⟨c, hc, hvalid, rfl⟩ := clock_clockText true hm
  have hplain : ∀ d ∈ clockText true c.micros, (!isOffsetMark d) = true := fun d hd => by
    rw [not_isOffsetMark_clockText hd]
    rfl
  cases offset with
  | none =>
    have htake : ((clockText true c.micros).takeWhile fun d => !isOffsetMark d) =
        clockText true c.micros := List.takeWhile_eq_self_iff.mpr hplain
    have hdrop : ((clockText true c.micros).dropWhile fun d => !isOffsetMark d) = [] :=
      List.dropWhile_eq_nil_iff.mpr hplain
    rw [Option.map_none, Option.getD_none, List.append_nil, readTime?, htake, hdrop, hc]
    simp [hvalid]
  | some o =>
    obtain ⟨mark, hmark, htext, hsign, hz⟩ : ∃ mark : CodePoint, isOffsetMark mark = true ∧
        offsetText o = mark :: clockText false o.natAbs ∧
        decide (mark = CodePoint.ofChar '-') = decide (o < 0) ∧ mark ≠ CodePoint.ofChar 'Z' := by
      by_cases h : o < 0
      · exact ⟨CodePoint.ofChar '-', by decide, by rw [offsetText, if_pos h]; rfl, by simp [h],
          by decide⟩
      · exact ⟨CodePoint.ofChar '+', by decide, by rw [offsetText, if_neg h]; rfl,
          by rw [decide_eq_false h]; decide, by decide⟩
    have htake : ((clockText true c.micros ++ mark :: clockText false o.natAbs).takeWhile
        fun d => !isOffsetMark d) = clockText true c.micros := by
      rw [List.takeWhile_append_of_pos hplain, List.takeWhile_cons_of_neg (by simp [hmark]),
        List.append_nil]
    have hdrop : ((clockText true c.micros ++ mark :: clockText false o.natAbs).dropWhile
        fun d => !isOffsetMark d) = mark :: clockText false o.natAbs := by
      rw [List.dropWhile_append_of_pos hplain, List.dropWhile_cons_of_neg (by simp [hmark])]
    have hoffset : (if o.natAbs < 1000000 then (0 : Int) else
        if decide (o < 0) = true then -(o.natAbs : Int) else o.natAbs) = readOffset o := by
      rw [readOffset]
      by_cases hsecond : o.natAbs < 1000000
      · rw [if_pos hsecond, if_pos hsecond]
      · rw [if_neg hsecond, if_neg hsecond]
        by_cases h : o < 0
        · rw [if_pos (decide_eq_true h)]
          omega
        · rw [if_neg (by simpa using h)]
          omega
    rw [Option.map_some, Option.getD_some, htext, readTime?, htake, hdrop, hc]
    simp only [Option.bind_eq_bind, Option.bind_some, hvalid, not_true_eq_false, if_false]
    rw [if_neg hz, hsign, offset_clockText _ (ho o rfl), hoffset]
    rfl

/-! ### Dates -/

lemma monthLength_le (year : ℕ) : ∀ n ∈ Date.monthLengths year, n ≤ 31 := by
  cases h : Date.isLeap year <;> simp [Date.monthLengths, h]

lemma day_le {d : Date} (hd : d.Valid) : d.day ≤ 31 := by
  refine hd.2.2.2.2.2.trans ?_
  rw [List.getD_eq_getElem?_getD]
  cases h : (Date.monthLengths d.year)[d.month - 1]? with
  | none => simp
  | some n => exact monthLength_le d.year n (List.mem_of_getElem? h)

lemma length_dateText {d : Date} (hd : d.Valid) : (dateText d).length = 10 := by
  have hday := day_le hd
  obtain ⟨-, hy, -, hm, -, -⟩ := hd
  simp only [dateText, List.length_append]
  rw [Text.length_padZeros (by decide) (by omega), Text.length_padZeros (by decide) (by omega),
    Text.length_padZeros (by decide) (by omega)]
  rfl

lemma readDate_dateText {d : Date} (hd : d.Valid) : readDate? (dateText d) = some d := by
  have hday := day_le hd
  have hof : Date.of? d.year d.month d.day = some d := if_pos hd
  obtain ⟨-, hy, -, hm, -, -⟩ := hd
  have htext : dateText d = Text.padZeros 4 d.year ++ CodePoint.ofChar '-' ::
      (Text.padZeros 2 d.month ++ CodePoint.ofChar '-' :: (Text.padZeros 2 d.day ++ [])) := by
    simp [dateText, Text.ofString]
  have hweek : ∀ rest, (Text.padZeros 2 d.month ++ rest).head? ≠ some (CodePoint.ofChar 'W') := by
    intro rest h
    have hlength : (Text.padZeros 2 d.month).length = 2 :=
      Text.length_padZeros (by decide) (by omega)
    cases hpad : Text.padZeros 2 d.month with
    | nil => simp [hpad] at hlength
    | cons c more =>
      have hdigit := Text.isDigit_of_mem_padZeros (hpad ▸ List.mem_cons_self : c ∈ Text.padZeros 2 d.month)
      rw [hpad, List.cons_append, List.head?_cons, Option.some_inj] at h
      subst h
      exact absurd hdigit (by decide)
  rw [htext, readDate?, number_padZeros (by decide) (by omega)]
  simp only [Option.bind_eq_bind, Option.bind_some, List.head?_cons, Option.pure_def, if_true,
    List.drop_succ_cons, List.drop_zero]
  rw [if_neg (hweek _), number_padZeros (by decide) (by omega)]
  simp only [Option.bind_some, dash?, List.head?_cons, Option.bind_eq_bind, Option.pure_def, if_true,
    List.drop_succ_cons, List.drop_zero]
  rw [number_padZeros (by decide) (by omega)]
  simp [hof]

lemma dateLength_dateText {d : Date} (hd : d.Valid) (time : Text) :
    dateLength? (dateText d ++ CodePoint.ofChar 'T' :: time) = some 10 := by
  have hday := day_le hd
  have hlength := length_dateText hd
  obtain ⟨-, hy, -, hm, -, -⟩ := hd
  obtain ⟨c, more, hc, hdigit⟩ : ∃ c more, dateText d ++ CodePoint.ofChar 'T' :: time =
      Text.padZeros 4 d.year ++ CodePoint.ofChar '-' :: c :: more ∧ c.isDigit = true := by
    have hlength : (Text.padZeros 2 d.month).length = 2 :=
      Text.length_padZeros (by decide) (by omega)
    cases hpad : Text.padZeros 2 d.month with
    | nil => simp [hpad] at hlength
    | cons c more =>
      have hdigit := Text.isDigit_of_mem_padZeros (hpad ▸ List.mem_cons_self : c ∈ Text.padZeros 2 d.month)
      exact ⟨c, _, by simp [dateText, Text.ofString, hpad]; rfl, hdigit⟩
  have hfour : (Text.padZeros 4 d.year).length = 4 := Text.length_padZeros (by decide) (by omega)
  have hdash : (dateText d ++ CodePoint.ofChar 'T' :: time).drop 4 = CodePoint.ofChar '-' :: c :: more := by
    rw [hc, List.drop_left' hfour]
  have hsecond : (dateText d ++ CodePoint.ofChar 'T' :: time).drop 5 = c :: more := by
    rw [← List.drop_drop (i := 1) (j := 4), hdash]
    rfl
  have hweek : c ≠ CodePoint.ofChar 'W' := by
    rintro rfl
    exact absurd hdigit (by decide)
  have htotal : (dateText d ++ CodePoint.ofChar 'T' :: time).length = time.length + 11 := by
    rw [List.length_append, hlength, List.length_cons]
    omega
  rw [dateLength?]
  simp only [htotal, hdash, hsecond, List.head?_cons]
  rw [if_neg (by omega), if_neg (by omega)]
  simp [hweek]

/-- A valid point in time is read back from its written form. -/
theorem parse_isoText {s : Stamp} (hs : s.Valid) :
    parse? s.isoText = some { s with offset := s.offset.map readOffset } := by
  have htext : s.isoText = dateText s.date ++ CodePoint.ofChar 'T' ::
      (clockText true s.micros ++ (s.offset.map offsetText).getD []) := by
    simp [isoText, localText, Text.ofString]
  have hlength := length_dateText hs.date
  rw [parse?, htext, dateLength_dateText hs.date]
  simp only [Option.bind_eq_bind, Option.bind_some]
  rw [List.take_left' hlength, readDate_dateText hs.date, List.drop_left' hlength]
  simp only [Option.bind_some]
  rw [readTime_clockText hs.micros s.offset hs.offset]
  rfl

end CommandWrap.Stamp

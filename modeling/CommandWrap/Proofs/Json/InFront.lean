import Mathlib
import CommandWrap.Proofs.Json.Reading

/-! Documents with an object at the end. Whatever stands in front of the object, the two make no
document, unless it is blank: the object is then left over, or the quote in front of its first name is
taken for the end of a string. -/
namespace CommandWrap.Json

variable {object here behind rest next : Text} {c : CodePoint} {flaw : SyntaxFlaw} {limit : Limit}

/-- The signs that stand behind names and values. -/
def followers : Text := ":,]\x7d"

/-- An object that is read to the end of the text. Its first name does not start with a blank, or with a
sign that could stand behind a value. -/
structure IsEntire (object : Text) : Prop where
  opens : ∃ c behind, object = CodePoint.ofChar '\x7b' :: CodePoint.ofChar '"' :: c :: behind ∧
    isBlank c = false ∧ c ∉ followers
  ends : ∀ depth v rest, value depth object = .ok (v, rest) → rest = []

/-! ### The object is still to come -/

namespace IsEntire

lemma suffix_of_cons (h : IsEntire object) (hc : c ≠ CodePoint.ofChar '\x7b')
    (hhere : object <:+ c :: behind) : object <:+ behind := by
  obtain ⟨first, more, rfl, -⟩ := h.opens
  rcases List.suffix_cons_iff.mp hhere with heq | hbehind
  · exact absurd (List.cons.inj heq).1.symm hc
  · exact hbehind

lemma suffix_of_flat (h : IsEntire object) (hflat : Flat here rest) (hhere : object <:+ here) :
    object <:+ rest := by
  obtain ⟨read, rfl, hread⟩ := hflat
  induction read with
  | nil => exact hhere
  | cons c read ih =>
    have hc : c ≠ CodePoint.ofChar '\x7b' := fun hc => hread (hc ▸ List.mem_cons_self)
    exact ih (fun hmem => hread (List.mem_cons_of_mem c hmem)) (h.suffix_of_cons hc hhere)

lemma suffix_skipBlanks (h : IsEntire object) (hhere : object <:+ here) : object <:+ skipBlanks here :=
  h.suffix_of_flat (.dropWhile (by decide) here) hhere

lemma suffix_after (h : IsEntire object) (hc : c ≠ CodePoint.ofChar '\x7b') (hhere : object <:+ here)
    (hafter : after c flaw here = .ok rest) : object <:+ rest := by
  rw [eq_cons_of_after hafter] at hhere
  exact h.suffix_of_cons hc hhere

lemma suffix_drop_one (h : IsEntire object) (hc : c ≠ CodePoint.ofChar '\x7b') (hhere : object <:+ here)
    (hhead : here.head? = some c) : object <:+ here.drop 1 := by
  obtain ⟨behind, rfl⟩ := List.head?_eq_some_iff.mp hhead
  exact h.suffix_of_cons hc hhere

end IsEntire

/-! ### Strings -/

lemma ne_brace_of_hex4 {a b c d unit : CodePoint} (hunit : hex4? a b c d = some unit) :
    ∀ e ∈ [a, b, c, d], e ≠ CodePoint.ofChar '\x7b' := by
  simp only [hex4?, Option.bind_eq_bind, Option.bind_eq_some_iff] at hunit
  obtain ⟨_, ha, _, hb, _, hc, _, hd, -⟩ := hunit
  have hnone : hexDigit? (CodePoint.ofChar '\x7b') = none := by decide
  rintro e he rfl
  simp only [List.mem_cons, List.not_mem_nil, or_false] at he
  rcases he with rfl | rfl | rfl | rfl <;> simp_all

lemma ne_brace_of_shortEscape {e d : CodePoint} (hd : shortEscape? e = some d) :
    e ≠ CodePoint.ofChar '\x7b' := by
  have hnone : shortEscape? (CodePoint.ofChar '\x7b') = none := by decide
  rintro rfl
  rw [hnone] at hd
  cases hd

/-- A string ends in front of the object, or at the first quote in it. -/
lemma stringRest_inFront (h : IsEntire object) {opening t : Text} {read : List Unit}
    (hhere : object <:+ here) (hstring : stringRest opening read here = .ok (t, rest)) :
    object <:+ rest ∨ rest = object.drop 2 := by
  fun_induction stringRest opening read here with
  | case2 read behind =>
    obtain ⟨-, rfl⟩ := Prod.mk.inj (Except.ok.inj hstring)
    exact .inl (h.suffix_of_cons (by decide) hhere)
  | case4 read a b c d next more unit hunit hne ih =>
    have hdigits := ne_brace_of_hex4 hunit
    simp only [List.forall_mem_cons] at hdigits
    obtain ⟨ha, hb, hc, hd, -⟩ := hdigits
    have hescape := h.suffix_of_cons (by decide) (h.suffix_of_cons (by decide) hhere)
    exact ih (h.suffix_of_cons hd (h.suffix_of_cons hc (h.suffix_of_cons hb
      (h.suffix_of_cons ha hescape)))) hstring
  | case7 read e behind he d hd hne ih =>
    have hescape := h.suffix_of_cons (by decide) hhere
    exact ih (h.suffix_of_cons (ne_brace_of_shortEscape hd) hescape) hstring
  | case10 read c behind hquote hslash hcontrol ih =>
    -- If this sign opens the object, the string ends with the quote behind it.
    rcases List.suffix_cons_iff.mp hhere with heq | hbehind
    · obtain ⟨first, more, hobject, -⟩ := h.opens
      obtain rfl : behind = CodePoint.ofChar '"' :: first :: more :=
        (List.cons.inj (heq.symm.trans hobject)).2
      rw [stringRest_quote] at hstring
      rw [hobject]
      exact .inr (Prod.mk.inj (Except.ok.inj hstring)).2.symm
    · exact ih hbehind hstring
  | case1 | case3 | case5 | case6 | case8 | case9 => simp [fail] at hstring

/-! ### Arrays and objects -/

/-- What a reader leaves: the object and perhaps more in front, nothing, or the object from its first
name on. -/
def Leaves (object rest : Text) : Prop := object <:+ rest ∨ rest = [] ∨ rest = object.drop 2

/-- Readers that come to a sign behind a value have not come to the object. -/
lemma IsEntire.suffix_of_leaves (h : IsEntire object) (hrest : Leaves object rest)
    (hhead : (skipBlanks rest).head? = some c) (hc : c ∈ followers) : object <:+ skipBlanks rest := by
  rcases hrest with hrest | rfl | rfl
  · exact h.suffix_skipBlanks hrest
  · cases hhead
  · obtain ⟨first, behind, rfl, hfirst, hnone⟩ := h.opens
    have hskip : skipBlanks (first :: behind) = first :: behind :=
      List.dropWhile_cons_of_neg (by simp [hfirst])
    have hsame : (skipBlanks (first :: behind)).head? = some first := by rw [hskip]; rfl
    obtain rfl := Option.some.inj (hsame.symm.trans hhead)
    exact absurd hc hnone

lemma IsEntire.drop_of_leaves (h : IsEntire object) (hrest : Leaves object rest)
    (hhead : (skipBlanks rest).head? = some c) (hc : c ∈ followers) :
    object <:+ (skipBlanks rest).drop 1 := by
  refine h.suffix_drop_one ?_ (h.suffix_of_leaves hrest hhead hc) hhead
  rintro rfl
  revert hc
  decide

lemma IsEntire.after_of_leaves (h : IsEntire object) (hrest : Leaves object rest)
    (hafter : after c flaw (skipBlanks rest) = .ok next) (hc : c ∈ followers) :
    object <:+ skipBlanks next := by
  have hhead : (skipBlanks rest).head? = some c := by
    rw [eq_cons_of_after hafter]
    rfl
  have hhere := h.suffix_of_leaves hrest hhead hc
  refine h.suffix_skipBlanks (h.suffix_after ?_ hhere hafter)
  rintro rfl
  revert hc
  decide

/-- Wherever in front of the object the reader starts, it leaves the object, or comes to its end or to
the first quote in it. -/
def HaltsAt (object : Text) (element : Text → Reading Json) : Prop :=
  ∀ here v rest, object <:+ here → element here = .ok (v, rest) → Leaves object rest

/-- A list that starts in front of the object ends there too: the sign behind each of its members is one
the object does not offer. -/
lemma Listed.inFront (h : IsEntire object) {α : Type} {one : Text → α → Text → Prop}
    (hone : ∀ here a behind, object <:+ here → one here a behind → Leaves object behind)
    {list : List α} (hlist : Listed one c here list rest) (hc : c ∈ followers)
    (hhere : object <:+ here) : object <:+ rest := by
  induction hlist with
  | last hlast hclose => exact h.drop_of_leaves (hone _ _ _ hhere hlast) hclose hc
  | more hfirst hcomma _ ih =>
    exact ih (h.after_of_leaves (hone _ _ _ hhere hfirst) hcomma (by decide))

lemma memberAt_inFront (h : IsEntire object) {element : Text → Reading Json}
    (helement : HaltsAt object element) {member : Text × Json} (hhere : object <:+ here)
    (hmember : MemberAt element here member behind) : Leaves object behind := by
  obtain ⟨quoted, behindName, colon, hquoted, hname, hcolon, hvalue⟩ := hmember
  have hnamed : Leaves object behindName := by
    rcases stringRest_inFront h (h.suffix_after (by decide) hhere hquoted) hname with hleft | hspent
    · exact .inl hleft
    · exact .inr (.inr hspent)
  exact helement _ _ _ (h.after_of_leaves hnamed hcolon (by decide)) hvalue

lemma arrayRest_inFront (h : IsEntire object) {element : Text → Reading Json}
    (helement : HaltsAt object element) {v : Json} (hhere : object <:+ here)
    (harray : arrayRest element here = .ok (v, rest)) : object <:+ rest := by
  rw [arrayRest] at harray
  split_ifs at harray with hclose
  · obtain ⟨-, rfl⟩ := Prod.mk.inj (Except.ok.inj harray)
    exact h.drop_of_leaves (.inl hhere) hclose (by decide)
  · obtain ⟨⟨list, last⟩, hlist, harray⟩ := map_eq_ok harray
    obtain ⟨-, rfl⟩ := Prod.mk.inj harray
    exact (listed_of_items hlist).inFront h helement (by decide) (h.suffix_skipBlanks hhere)

lemma objectRest_inFront (h : IsEntire object) {element : Text → Reading Json}
    (helement : HaltsAt object element) {v : Json} (hhere : object <:+ here)
    (hmembers : objectRest element here = .ok (v, rest)) : object <:+ rest := by
  rw [objectRest] at hmembers
  split_ifs at hmembers with hclose
  · obtain ⟨-, rfl⟩ := Prod.mk.inj (Except.ok.inj hmembers)
    exact h.drop_of_leaves (.inl hhere) hclose (by decide)
  · obtain ⟨⟨list, last⟩, hlist, hmembers⟩ := map_eq_ok hmembers
    obtain ⟨-, rfl⟩ := Prod.mk.inj hmembers
    exact (listed_of_members hlist).inFront h (fun _ _ _ => memberAt_inFront h helement) (by decide)
      (h.suffix_skipBlanks hhere)

/-! ### Values and documents -/

/-- A value that starts in front of the object leaves the object, or the part behind its first quote. -/
lemma valueOver_inFront (h : IsEntire object) {inside : Option (Text → Reading Json)}
    (hinside : ∀ element ∈ inside, HaltsAt object element) {v : Json} (hhere : object <:+ here)
    (hne : here ≠ object) (hvalue : valueOver inside here = .ok (v, rest)) :
    object <:+ rest ∨ rest = object.drop 2 := by
  cases here with
  | nil => simp [valueOver, fail] at hvalue
  | cons c behind =>
    have hbehind : object <:+ behind :=
      (List.suffix_cons_iff.mp hhere).resolve_left fun heq => hne heq.symm
    rw [valueOver.eq_def] at hvalue
    dsimp only at hvalue
    split_ifs at hvalue
    · obtain ⟨⟨t, last⟩, hstring, hvalue⟩ := map_eq_ok hvalue
      obtain ⟨-, rfl⟩ := Prod.mk.inj hvalue
      exact stringRest_inFront h hbehind hstring
    · cases inside with
      | none => simp at hvalue
      | some element => exact .inl (arrayRest_inFront h (hinside element rfl) hbehind hvalue)
    · cases inside with
      | none => simp at hvalue
      | some element => exact .inl (objectRest_inFront h (hinside element rfl) hbehind hvalue)
    · exact .inl (h.suffix_of_flat (flat_scalar hvalue) hhere)

lemma value_inFront (h : IsEntire object) (depth : Nat) {v : Json} (hhere : object <:+ here)
    (hne : here ≠ object) (hvalue : value depth here = .ok (v, rest)) :
    object <:+ rest ∨ rest = object.drop 2 := by
  induction depth generalizing here v rest with
  | zero => exact valueOver_inFront h (by simp) hhere hne hvalue
  | succ depth ih =>
    refine valueOver_inFront h (fun element helement => ?_) hhere hne hvalue
    obtain rfl : value depth = element := by simpa using helement
    intro here v rest hhere hvalue
    -- An inner value may start right at the object, which is then read to the end.
    by_cases hwhole : here = object
    · rw [hwhole] at hvalue
      exact .inr (.inl (h.ends depth v rest hvalue))
    · rcases ih hhere hwhole hvalue with hleft | hspent
      · exact .inl hleft
      · exact .inr (.inr hspent)

lemma IsEntire.head? (h : IsEntire object) : object.head? = some (CodePoint.ofChar '\x7b') := by
  obtain ⟨c, behind, rfl, -⟩ := h.opens
  rfl

/-- Blanks in front of an object do no harm. -/
theorem parse_append_of_blank (h : IsEntire object) {front : Text} {v : Json}
    (hfront : ∀ c ∈ front, isBlank c = true) (hparse : parse limit object = .ok v) :
    parse limit (front ++ object) = .ok v := by
  have hskip : skipBlanks (front ++ object) = skipBlanks object :=
    List.dropWhile_append_of_pos hfront
  have hmark : (front ++ object).head? ≠ some ⟨0xFEFF, by decide⟩ := by
    cases front with
    | nil =>
      rw [List.nil_append, h.head?]
      decide
    | cons c front =>
      have hc := hfront c List.mem_cons_self
      rintro heq
      rw [Option.some.inj heq] at hc
      revert hc
      decide
  have hsame : object.head? ≠ some ⟨0xFEFF, by decide⟩ := by
    rw [h.head?]
    decide
  have hdocument := mapError_eq_ok hparse
  rw [document, if_neg hsame, ← hskip] at hdocument
  rw [parse, parseWithin, document, if_neg hmark, hdocument]
  rfl

/-- Anything else in front of an object makes it no document. -/
theorem parse_append_of_not_blank (h : IsEntire object) {front : Text}
    (hfront : ∃ c ∈ front, isBlank c = false) (v : Json) :
    parse limit (front ++ object) ≠ .ok v := by
  intro hparse
  obtain ⟨rest, hvalue, hempty⟩ := value_of_parse hparse
  have hkept : skipBlanks front ≠ [] := by
    obtain ⟨c, hc, hblank⟩ := hfront
    intro hnone
    have hall := List.dropWhile_eq_nil_iff.mp hnone c hc
    rw [hblank] at hall
    cases hall
  have hne : skipBlanks (front ++ object) ≠ object := by
    have hskip : skipBlanks (front ++ object) = skipBlanks front ++ object := by
      unfold skipBlanks at hkept ⊢
      rw [List.dropWhile_append, if_neg (by simpa using hkept)]
    rw [hskip]
    simpa using hkept
  have hhere : object <:+ skipBlanks (front ++ object) := h.suffix_skipBlanks (List.suffix_append _ _)
  rcases value_inFront h limit.levels hhere hne hvalue with hleft | rfl
  · have hsuffix := h.suffix_skipBlanks hleft
    rw [hempty, List.suffix_nil] at hsuffix
    have hhead := h.head?
    rw [hsuffix] at hhead
    cases hhead
  · obtain ⟨c, behind, rfl, hc, -⟩ := h.opens
    have hskip : skipBlanks (c :: behind) = c :: behind :=
      List.dropWhile_cons_of_neg (by simp [hc])
    exact List.cons_ne_nil c behind (hskip.symm.trans hempty)

end CommandWrap.Json

import Mathlib
import CommandWrap.Proofs.Session.Appending
import CommandWrap.Proofs.Tally.Recorded

/-! Session files with one text behind another. The account of the whole is the sum of the accounts of the
parts, whatever signs meet between them, so lines that count for nothing can come and go. -/
namespace CommandWrap

/-- The text is empty, or it ends with a line end. -/
def Text.IsClosed (t : Text) : Prop := ∀ c ∈ t.getLast?, c.isLineEnd = true

instance (t : Text) : Decidable t.IsClosed :=
  inferInstanceAs (Decidable (∀ c ∈ t.getLast?, c.isLineEnd = true))

lemma Text.IsClosed.append {s t : Text} (hs : s.IsClosed) (ht : t.IsClosed) : Text.IsClosed (s ++ t) := by
  intro c hc
  rw [List.getLast?_append] at hc
  cases hlast : t.getLast? with
  | none =>
    rw [hlast] at hc
    exact hs c hc
  | some d =>
    rw [hlast] at hc
    exact ht c (hlast.trans hc)

namespace Session

open FileSystem

variable {limit : Json.Limit} {text line front back skipped : Text} {first second : List Text}
  {entries : List (Stamp × Text)}
  {files : FileSystem} {directory : Path} {id : Text}

/-! ### Lines -/

/-- The lines of a file with this text. -/
def linesIn (text : Text) : List Text := text.unifyLineEnds.splitLines

lemma linesIn_append_of_seam (hfront : front.IsClosed)
    (hseam : front.getLast? = some (CodePoint.ofChar '\r') → back.head? ≠ some (CodePoint.ofChar '\n')) :
    linesIn (front ++ back) = linesIn front ++ linesIn back := by
  unfold linesIn
  rw [Text.unifyLineEnds_append hseam,
    Text.splitLines_append_of_closed (Text.isLineEnd_getLast?_unifyLineEnds hfront)]

/-- Behind a line end, the lines are those of the two texts, less the empty line that a line feed ends if a
carriage return comes to stand before it. -/
lemma linesIn_append (hfront : front.IsClosed) (back : Text) :
    linesIn (front ++ back) = linesIn front ++ linesIn back ∨
      ∃ more, linesIn back = [] :: more ∧ linesIn (front ++ back) = linesIn front ++ more := by
  by_cases hseam : front.getLast? = some (CodePoint.ofChar '\r') ∧
      back.head? = some (CodePoint.ofChar '\n')
  · right
    obtain ⟨hreturn, hfeed⟩ := hseam
    obtain ⟨rest, rfl⟩ := List.head?_eq_some_iff.mp hfeed
    refine ⟨linesIn rest, rfl, ?_⟩
    unfold linesIn
    rw [Text.unifyLineEnds_append_feed hreturn,
      Text.splitLines_append_of_closed (Text.isLineEnd_getLast?_unifyLineEnds hfront)]
  · left
    apply linesIn_append_of_seam hfront
    exact fun hreturn hfeed => hseam ⟨hreturn, hfeed⟩

lemma readLines_cons (limit : Json.Limit) (line : Text) (lines : List Text) :
    readLines limit (line :: lines) = (do
    let entry ← readLine limit line
    let entries ← readLines limit lines
    return entry.toList ++ entries) := rfl

lemma readLines_append (limit : Json.Limit) (first second : List Text) :
    readLines limit (first ++ second) = (do
    let entries ← readLines limit first
    let more ← readLines limit second
    return entries ++ more) := by
  induction first with
  | nil =>
    cases h : readLines limit second with
    | error error =>
      rw [List.nil_append, h]
      rfl
    | ok more =>
      rw [List.nil_append, h]
      rfl
  | cons line first ih =>
    rw [List.cons_append, readLines_cons, readLines_cons, ih]
    cases readLine limit line with
    | error error => rfl
    | ok entry =>
      cases readLines limit first with
      | error error => rfl
      | ok entries =>
        cases readLines limit second with
        | error error => rfl
        | ok more => exact congrArg Except.ok (List.append_assoc _ _ _).symm

lemma readLines_of_skipped {before after : List Text} (h : readLine limit line = .ok none) :
    readLines limit (before ++ line :: after) = readLines limit (before ++ after) := by
  rw [readLines_append, readLines_append, readLines_cons, h]
  cases readLines limit before with
  | error error => rfl
  | ok entries => cases readLines limit after <;> rfl

/-! ### Texts -/

/-- The file of a session holds this text. -/
def HasText (files : FileSystem) (directory : Path) (id text : Text) : Prop :=
  ∃ bytes, files.read (path directory id) = .ok bytes ∧ Utf8.decode bytes = .ok text

/-- A file with this text is loaded as this account. -/
def IsLoadedAs (limit : Json.Limit) (text : Text) (account : Account) : Prop :=
  ∃ files directory id now, HasText files directory id text ∧ load limit now directory id files = .ok account

/-- A line of the text counts. -/
def HasRewrite (limit : Json.Limit) (text : Text) : Prop := ∃ line ∈ linesIn text, IsRewrite limit line

lemma load_of_hasText (h : HasText files directory id text) (now : Stamp) :
    load limit now directory id files =
      ((readLines limit (linesIn text)).mapError Fault.json).map (accountOf now) := by
  obtain ⟨bytes, hread, hdecode⟩ := h
  exact load_of_readText (readText_of_bytes hread hdecode) now

lemma load_of_readLines (h : HasText files directory id text)
    (hlines : readLines limit (linesIn text) = .ok entries)
    (now : Stamp) : load limit now directory id files = .ok (accountOf now entries) := by
  rw [load_of_hasText h, hlines]
  rfl

lemma readLines_of_isLoadedAs {account : Account} (h : IsLoadedAs limit text account) :
    ∃ entries now, readLines limit (linesIn text) = .ok entries ∧ account = accountOf now entries := by
  obtain ⟨files, directory, id, now, htext, hload⟩ := h
  rw [load_of_hasText htext] at hload
  obtain ⟨entries, hentries, haccount⟩ := map_eq_ok hload
  exact ⟨entries, now, mapError_eq_ok hentries, haccount.symm⟩

/-- The rewrites that are read from lines are those of the lines that are rewrites. -/
lemma eq_filterMap_of_readLines {lines : List Text} (h : readLines limit lines = .ok entries) :
    entries = lines.filterMap (rewrite? limit) := by
  have hfree : ∀ line ∈ lines, ¬ Obstructs limit line := by
    by_contra hnot
    have hsome : ∃ line ∈ lines, Obstructs limit line := by
      simpa using hnot
    obtain ⟨-, -, -, error, -, herror⟩ := readLines_of_obstructs hsome
    rw [herror] at h
    cases h
  rw [readLines_of_not_obstructs hfree] at h
  exact (Except.ok.inj h).symm

lemma hasRewrite_iff (h : readLines limit (linesIn text) = .ok entries) :
    HasRewrite limit text ↔ entries ≠ [] := by
  rw [eq_filterMap_of_readLines h, Ne, List.filterMap_eq_nil_iff]
  constructor
  · rintro ⟨line, hline, hrewrite⟩ hnone
    have hsome := isSome_rewrite?_iff.mpr hrewrite
    rw [hnone line hline] at hsome
    cases hsome
  · intro hsome
    by_contra hnot
    apply hsome
    intro line hline
    have hno : ¬ IsRewrite limit line := fun hrewrite => hnot ⟨line, hline, hrewrite⟩
    simpa using mt isSome_rewrite?_iff.mp hno

/-! ### Lines that count for nothing -/

/-- A line alone in a file is loaded as no rewrites. -/
structure IsSkipped (limit : Json.Limit) (line : Text) : Prop where
  isLine : ∀ c ∈ line, c.isLineEnd = false
  loaded : ∃ account, IsLoadedAs limit line account ∧ account.tally = {}

lemma linesIn_line (h : ∀ c ∈ line, c.isLineEnd = false) (hne : line ≠ []) : linesIn line = [line] := by
  have hreturn : CodePoint.ofChar '\r' ∉ line := by
    intro hc
    have hend := h _ hc
    revert hend
    decide
  rw [linesIn, Text.unifyLineEnds_of_notMem hreturn, Text.splitLines_of_open h hne]

lemma readLine_empty : readLine limit [] = .ok none := by
  have hblank : rewrite? limit [] = none := rewrite?_of_blank (by simp)
  have hparse : Json.parse limit [] = .error (.malformed .expectingValue 0 1 1) := by
    obtain ⟨below, hlevels⟩ := limit.exists_levels
    rw [Json.parse, hlevels]
    rfl
  have hfree : ¬ Obstructs limit [] := by
    simp [Obstructs, hparse]
  rw [readLine_of_not_obstructs hfree, hblank]

lemma readLine_of_isSkipped (h : IsSkipped limit line) : readLine limit line = .ok none := by
  obtain ⟨account, hloaded, htally⟩ := h.loaded
  by_cases hne : line = []
  · rw [hne]
    exact readLine_empty
  obtain ⟨entries, now, hentries, rfl⟩ := readLines_of_isLoadedAs hloaded
  rw [linesIn_line h.isLine hne] at hentries
  have hfilter := eq_filterMap_of_readLines hentries
  have hfree : ¬ Obstructs limit line := by
    intro hobstructs
    obtain ⟨error, -, herror⟩ := readLine_of_obstructs hobstructs
    rw [readLines_cons, herror] at hentries
    cases hentries
  have htotal : (Tally.ofCommands (entries.map (·.2))).total = entries.length := by
    rw [hfilter]
    exact total_ofCommands_rewrites [line]
  have hzero : entries.length = 0 := by
    rw [← htotal]
    exact congrArg Tally.total htally
  rw [readLine_of_not_obstructs hfree]
  cases hrewrite : rewrite? limit line with
  | none => rfl
  | some entry =>
    rw [hfilter] at hzero
    simp [hrewrite] at hzero

/-- One line that counts for nothing is put in. -/
def Inserts (limit : Json.Limit) (first second : List Text) : Prop :=
  ∃ before line after, IsSkipped limit line ∧ first = before ++ after ∧ second = before ++ line :: after

/-- Putting in lines that count for nothing, and taking out such lines, leads from one to the other. -/
def SameButSkipped (limit : Json.Limit) : List Text → List Text → Prop := Relation.EqvGen (Inserts limit)

lemma readLines_of_inserts (h : Inserts limit first second) :
    readLines limit first = readLines limit second := by
  obtain ⟨before, line, after, hline, rfl, rfl⟩ := h
  exact (readLines_of_skipped (readLine_of_isSkipped hline)).symm

lemma readLines_of_sameButSkipped (h : SameButSkipped limit first second) :
    readLines limit first = readLines limit second := by
  induction h with
  | rel first second hinserts => exact readLines_of_inserts hinserts
  | refl first => rfl
  | symm first second _ ih => exact ih.symm
  | trans first second third _ _ ih ih' => exact ih.trans ih'

lemma SameButSkipped.append (h : SameButSkipped limit first second) (more : List Text) :
    SameButSkipped limit (first ++ more) (second ++ more) := by
  induction h with
  | rel first second hinserts =>
    obtain ⟨before, line, after, hline, rfl, rfl⟩ := hinserts
    exact .rel _ _ ⟨before, line, after ++ more, hline, by simp, by simp⟩
  | refl first => exact .refl _
  | symm first second _ ih => exact .symm _ _ ih
  | trans first second third _ _ ih ih' => exact .trans _ _ _ ih ih'

lemma sameButSkipped_insert {lines : List Text} (h : ∀ line ∈ lines, IsSkipped limit line)
    (before after : List Text) : SameButSkipped limit (before ++ after) (before ++ lines ++ after) := by
  induction lines generalizing before with
  | nil =>
    rw [List.append_nil]
    exact .refl _
  | cons line lines ih =>
    obtain ⟨hline, hlines⟩ := List.forall_mem_cons.mp h
    have hfirst : Inserts limit (before ++ after) (before ++ line :: after) :=
    ⟨before, line, after, hline, rfl, rfl⟩
    have hmore := ih hlines (before ++ [line])
    rw [List.append_assoc before [line] after, List.append_assoc before [line] lines] at hmore
    exact .trans _ _ _ (.rel _ _ hfirst) hmore

lemma hasText_holding {held : Text} (h : ∀ c ∈ held, c.isAscii = true) :
    HasText (holding held) heldDirectory "a" held :=
  ⟨Utf8.encode held, by cbv, Utf8.decode_ascii h⟩

lemma isLoadedAs_of_ascii (h : ∀ c ∈ text, c.isAscii = true)
    (hlines : readLines limit (linesIn text) = .ok entries) :
    IsLoadedAs limit text (accountOf heldTime entries) :=
  ⟨_, _, _, _, hasText_holding h, load_of_readLines (hasText_holding h) hlines heldTime⟩

lemma isSkipped_empty : IsSkipped limit [] :=
  ⟨by simp, accountOf heldTime [], isLoadedAs_of_ascii (by simp) rfl, rfl⟩

lemma sameButSkipped_seam (limit : Json.Limit) (hfront : front.IsClosed) (back : Text) :
    SameButSkipped limit (linesIn (front ++ back)) (linesIn front ++ linesIn back) := by
  rcases linesIn_append hfront back with hboth | ⟨more, hback, hboth⟩
  · rw [hboth]
    exact .refl _
  · rw [hboth, hback]
    exact .rel _ _ ⟨linesIn front, [], more, isSkipped_empty, rfl, rfl⟩

/-- A text of lines that count for nothing, put in between lines, changes no other line. -/
lemma sameButSkipped_between (hfront : front.IsClosed) (hskipped : skipped.IsClosed ∨ back = [])
    (h : ∀ line ∈ linesIn skipped, IsSkipped limit line) :
    SameButSkipped limit (linesIn (front ++ back)) (linesIn (front ++ skipped ++ back)) := by
  have hwithout := sameButSkipped_seam limit hfront back
  have hinserted := sameButSkipped_insert h (linesIn front) (linesIn back)
  have hfirst := (sameButSkipped_seam limit hfront skipped).append (linesIn back)
  have hwith : SameButSkipped limit (linesIn (front ++ skipped ++ back))
      (linesIn (front ++ skipped) ++ linesIn back) := by
    rcases hskipped with hclosed | rfl
    · exact sameButSkipped_seam limit (hfront.append hclosed) back
    · have hnone : linesIn [] = [] := rfl
      rw [hnone, List.append_nil, List.append_nil]
      exact .refl _
  exact .trans _ _ _ hwithout (.trans _ _ _ hinserted (.symm _ _ (.trans _ _ _ hwith hfirst)))

/-! ### Files with one text behind another -/

/-- The account of two texts, the second behind the first. -/
lemma load_append {first second : Account} (hfirst : IsLoadedAs limit front first)
    (hsecond : IsLoadedAs limit back second) (hfront : front.IsClosed)
    (htext : HasText files directory id (front ++ back)) (now : Stamp) :
    ∃ account, load limit now directory id files = .ok account ∧
      Tally.IsSumOf first.tally second.tally account.tally ∧
      (HasRewrite limit front → account.startedAt = first.startedAt) ∧
      (¬ HasRewrite limit front → HasRewrite limit back → account.startedAt = second.startedAt) := by
  obtain ⟨entries, before, hentries, rfl⟩ := readLines_of_isLoadedAs hfirst
  obtain ⟨more, later, hmore, rfl⟩ := readLines_of_isLoadedAs hsecond
  have hboth : readLines limit (linesIn (front ++ back)) = .ok (entries ++ more) := by
    rw [readLines_of_sameButSkipped (sameButSkipped_seam limit hfront back), readLines_append, hentries, hmore]
    rfl
  refine ⟨_, load_of_readLines htext hboth now, ?_, ?_, ?_⟩
  · have hkeys : (entries ++ more).map Prod.snd = entries.map Prod.snd ++ more.map Prod.snd :=
      List.map_append
    have hsum := Tally.isSumOf_ofCommands (entries.map Prod.snd) (more.map Prod.snd)
    rwa [← hkeys] at hsum
  · intro hrewrite
    obtain ⟨entry, others, rfl⟩ := List.exists_cons_of_ne_nil ((hasRewrite_iff hentries).mp hrewrite)
    rfl
  · intro hnone hrewrite
    have hempty : entries = [] := by
      by_contra hne
      exact hnone ((hasRewrite_iff hentries).mpr hne)
    obtain ⟨entry, others, rfl⟩ := List.exists_cons_of_ne_nil ((hasRewrite_iff hmore).mp hrewrite)
    rw [hempty]
    rfl

/-- Two texts that are loaded are loaded together, if the first ends its last line: the tallies are added, and
the first rewrite is that of the first text that has one. Lines that count for nothing can be put in and taken
out between lines, which changes no account. -/
theorem load_concatenated (limit : Json.Limit) :
    (∀ {front back : Text} {first second : Account},
      IsLoadedAs limit front first → IsLoadedAs limit back second → front.IsClosed →
      ∀ {files : FileSystem} {directory : Path} {id : Text}, HasText files directory id (front ++ back) →
      ∀ now, ∃ account, load limit now directory id files = .ok account ∧
        Tally.IsSumOf first.tally second.tally account.tally ∧
        (HasRewrite limit front → account.startedAt = first.startedAt) ∧
        (¬ HasRewrite limit front → HasRewrite limit back → account.startedAt = second.startedAt)) ∧
    (∀ {text other : Text}, SameButSkipped limit (linesIn text) (linesIn other) →
      ∀ {files files' : FileSystem} {directory directory' : Path} {id id' : Text},
      HasText files directory id text → HasText files' directory' id' other →
      ∀ now, load limit now directory id files = load limit now directory' id' files') ∧
    ∀ {front skipped back : Text}, front.IsClosed → skipped.IsClosed ∨ back = [] →
      (∀ line ∈ linesIn skipped, IsSkipped limit line) →
      SameButSkipped limit (linesIn (front ++ back)) (linesIn (front ++ skipped ++ back)) := by
  refine ⟨fun hfirst hsecond hfront => fun htext now => load_append hfirst hsecond hfront htext now, ?_,
    fun hfront hskipped h => sameButSkipped_between hfront hskipped h⟩
  intro text other hsame files files' directory directory' id id' htext hother now
  rw [load_of_hasText htext, load_of_hasText hother, readLines_of_sameButSkipped hsame]

/-! ### A carriage return and a line feed that meet -/

def strayReturn : Text := "x\r"

def feedAndLine : Text := CodePoint.ofChar '\n' :: Session.line heldTime "ls"

lemma isAscii_feedAndLine : ∀ c ∈ feedAndLine, c.isAscii = true := by
  intro c hc
  rcases List.mem_cons.mp hc with rfl | hc
  · decide
  · exact (isVisible_line heldTime "ls" c hc).isAscii

lemma readLine_stray : readLine {} "x" = .ok none := by
  rw [readLine_of_not_obstructs skipped_stray.1, skipped_stray.2]

lemma readLines_stray : readLines {} [Text.ofString "x"] = .ok [] := by
  rw [readLines_cons, readLine_stray]
  rfl

lemma readLines_feedAndLine : readLines {} (linesIn feedAndLine) = .ok [(heldTime, "ls")] := by
  have hopen : ∀ c ∈ Session.line heldTime "ls", c.isLineEnd = false := fun c hc =>
    (isVisible_line heldTime "ls" c hc).isLineEnd
  have hline : readLine {} (Session.line heldTime "ls") = _ :=
    readLine_line valid_heldTime rfl (by decide : Text.Joined "ls") (by decide)
  have hone : linesIn (Session.line heldTime "ls") = [Session.line heldTime "ls"] :=
    linesIn_line hopen (by decide)
  have hlines : linesIn feedAndLine = [[], Session.line heldTime "ls"] := congrArg (List.cons []) hone
  rw [hlines, readLines_cons, readLine_empty, readLines_cons, hline]
  rfl

/-- The line feed of the second text ends no line of its own behind the carriage return of the first, and the
rewrite behind it counts; so it does with the first text put in once more. -/
theorem load_concatenated_feed :
    (∃ account, load {} heldTime heldDirectory "a" (holding (strayReturn ++ feedAndLine)) = .ok account ∧
      account.tally.total = 1 ∧ account.startedAt = heldTime) ∧
    load {} heldTime heldDirectory "a" (holding (strayReturn ++ strayReturn ++ feedAndLine)) =
      load {} heldTime heldDirectory "a" (holding (strayReturn ++ feedAndLine)) := by
  obtain ⟨happend, hload, hinsert⟩ := load_concatenated {}
  have hclosed : strayReturn.IsClosed := by decide
  have hascii : ∀ c ∈ strayReturn, c.isAscii = true := by decide
  have hboth : ∀ c ∈ strayReturn ++ feedAndLine, c.isAscii = true := by
    intro c hc
    rcases List.mem_append.mp hc with hc | hc
    · exact hascii c hc
    · exact isAscii_feedAndLine c hc
  have hthrice : ∀ c ∈ strayReturn ++ strayReturn ++ feedAndLine, c.isAscii = true := by
    intro c hc
    rw [List.append_assoc] at hc
    rcases List.mem_append.mp hc with hc | hc
    · exact hascii c hc
    · exact hboth c hc
  have hlines : linesIn strayReturn = [Text.ofString "x"] := rfl
  constructor
  · have hnone : readLines {} (linesIn strayReturn) = .ok [] := by
      rw [hlines]
      exact readLines_stray
    obtain ⟨account, haccount, hsum, -, hstarted⟩ :=
      happend (isLoadedAs_of_ascii hascii hnone)
      (isLoadedAs_of_ascii isAscii_feedAndLine readLines_feedAndLine)
        hclosed (hasText_holding hboth) heldTime
    have hno : ¬ HasRewrite {} strayReturn := fun h => (hasRewrite_iff hnone).mp h rfl
    have hyes : HasRewrite {} feedAndLine := (hasRewrite_iff readLines_feedAndLine).mpr (by simp)
    exact ⟨account, haccount, hsum.total, hstarted hno hyes⟩
  · have hskipped : ∀ line ∈ linesIn strayReturn, IsSkipped {} line := by
      intro line hline
      rw [hlines] at hline
      rw [List.mem_singleton.mp hline]
      exact ⟨by decide, _, isLoadedAs_of_ascii (by decide) readLines_stray, rfl⟩
    have hsame : SameButSkipped {} (linesIn (strayReturn ++ feedAndLine))
        (linesIn (strayReturn ++ strayReturn ++ feedAndLine)) :=
      hinsert hclosed (.inl hclosed) hskipped
    exact (hload hsame (hasText_holding hboth) (hasText_holding hthrice) heldTime).symm

end Session
end CommandWrap

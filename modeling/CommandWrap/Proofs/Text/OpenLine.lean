import Mathlib
import CommandWrap.Proofs.Text.Lines

/-! Texts that end within a line: the lines in front are settled, and what is added continues the open
line. -/
namespace CommandWrap.Text

variable {front line : Text}

/-- What stands behind the last line end. -/
def openLine (t : Text) : Text := t.rtakeWhile fun c => !c.isLineEnd

/-- What stands up to the last line end. -/
def closedLines (t : Text) : Text := t.rdropWhile fun c => !c.isLineEnd

lemma closedLines_append_openLine (t : Text) : t.closedLines ++ t.openLine = t :=
  List.rdropWhile_append_rtakeWhile

lemma isLineEnd_of_mem_openLine {t : Text} {c : CodePoint} (hc : c ∈ t.openLine) :
    c.isLineEnd = false := by
  have hkept := List.mem_rtakeWhile_imp hc
  simpa using hkept

lemma isLineEnd_getLast?_closedLines (t : Text) : ∀ c ∈ t.closedLines.getLast?, c.isLineEnd = true := by
  intro c hc
  have hne : t.closedLines ≠ [] := by
    rintro hnil
    simp [hnil] at hc
  have hlast : ¬ (!(t.closedLines.getLast hne).isLineEnd) = true :=
    List.rdropWhile_last_not (fun c : CodePoint => !c.isLineEnd) t hne
  rw [List.getLast?_eq_getLast_of_ne_nil hne] at hc
  rw [← Option.some.inj hc]
  simpa using hlast

/-! ### Lines of the parts -/

lemma splitLines_ne_nil {t : Text} (ht : t ≠ []) : splitLines t ≠ [] := by
  cases t with
  | nil => exact absurd rfl ht
  | cons c rest =>
    unfold splitLines
    split_ifs
    · exact List.cons_ne_nil _ _
    · split <;> exact List.cons_ne_nil _ _

/-- Behind a line end, the lines are those of the rest. -/
lemma splitLines_append_of_closed (hfront : ∀ c ∈ front.getLast?, c.isLineEnd = true) (rest : Text) :
    splitLines (front ++ rest) = splitLines front ++ splitLines rest := by
  induction front with
  | nil => rfl
  | cons c front ih =>
    by_cases hend : c.isLineEnd = true
    · have hmore : ∀ d ∈ front.getLast?, d.isLineEnd = true := by
        intro d hd
        refine hfront d ?_
        rw [List.getLast?_cons, Option.mem_def.mp hd]
        rfl
      rw [List.cons_append, splitLines, if_pos hend, ih hmore, splitLines, if_pos hend]
      rfl
    · have hne : front ≠ [] := by
        rintro rfl
        exact hend (hfront c rfl)
      have hmore : ∀ d ∈ front.getLast?, d.isLineEnd = true := by
        intro d hd
        refine hfront d ?_
        rwa [List.getLast?_cons_of_ne_nil hne]
      obtain ⟨first, others, hlines⟩ := List.exists_cons_of_ne_nil (splitLines_ne_nil hne)
      rw [List.cons_append, splitLines, if_neg hend, ih hmore, splitLines, if_neg hend, hlines]
      rfl

lemma splitLines_of_open (hline : ∀ c ∈ line, c.isLineEnd = false) (hne : line ≠ []) :
    splitLines line = [line] := by
  induction line with
  | nil => exact absurd rfl hne
  | cons c line ih =>
    have hc : ¬ c.isLineEnd = true := by simp [hline c List.mem_cons_self]
    rw [splitLines, if_neg hc]
    by_cases hmore : line = []
    · rw [hmore]
      rfl
    · rw [ih (fun d hd => hline d (List.mem_cons_of_mem c hd)) hmore]

lemma splitLines_eq_of_openLine (t : Text) :
    splitLines t = splitLines t.closedLines ++ if t.openLine = [] then [] else [t.openLine] := by
  conv_lhs => rw [← closedLines_append_openLine t]
  rw [splitLines_append_of_closed (isLineEnd_getLast?_closedLines t)]
  split_ifs with hopen
  · rw [hopen]
    rfl
  · rw [splitLines_of_open (fun c hc => isLineEnd_of_mem_openLine hc) hopen]

/-- A line that is added continues the open line. -/
lemma splitLines_append_line (t : Text) (hline : ∀ c ∈ line, c.isLineEnd = false) :
    splitLines (t ++ (line ++ "\n")) = splitLines t.closedLines ++ [t.openLine ++ line] := by
  have hparts : t ++ (line ++ "\n") =
      t.closedLines ++ ((t.openLine ++ line) ++ CodePoint.ofChar '\n' :: []) := by
    conv_lhs => rw [← closedLines_append_openLine t]
    simp [ofString]
  have hopen : ∀ c ∈ t.openLine ++ line, c.isLineEnd = false := by
    intro c hc
    rcases List.mem_append.mp hc with hc | hc
    · exact isLineEnd_of_mem_openLine hc
    · exact hline c hc
  rw [hparts, splitLines_append_of_closed (isLineEnd_getLast?_closedLines t), splitLines_append hopen]
  rfl

lemma mem_of_mem_splitLines {t : Text} {c : CodePoint} (hline : line ∈ splitLines t) (hc : c ∈ line) :
    c ∈ t := by
  induction t generalizing line with
  | nil => simp [splitLines] at hline
  | cons d t ih =>
    rw [splitLines] at hline
    split_ifs at hline
    · rcases List.mem_cons.mp hline with rfl | hline
      · cases hc
      · exact List.mem_cons_of_mem d (ih hline hc)
    · cases hlines : splitLines t with
      | nil =>
        rw [hlines] at hline
        rw [List.mem_singleton.mp hline] at hc
        rw [List.mem_singleton.mp hc]
        exact List.mem_cons_self
      | cons first others =>
        rw [hlines] at hline ih
        rcases List.mem_cons.mp hline with rfl | hline
        · rcases List.mem_cons.mp hc with rfl | hc
          · exact List.mem_cons_self
          · exact List.mem_cons_of_mem d (ih List.mem_cons_self hc)
        · exact List.mem_cons_of_mem d (ih (List.mem_cons_of_mem first hline) hc)

/-! ### Texts of the parts -/

lemma unifyLineEnds_cons (c : CodePoint) (t : Text) : unifyLineEnds (c :: t) =
    if c = CodePoint.ofChar '\r' then
      if t.head? = some (CodePoint.ofChar '\n') then unifyLineEnds t
      else CodePoint.ofChar '\n' :: unifyLineEnds t
    else c :: unifyLineEnds t := rfl

/-- Line ends are unified part by part, unless the parts meet within a carriage return and a line feed. -/
lemma unifyLineEnds_append {front rest : Text} (h : front.getLast? = some (CodePoint.ofChar '\r') →
    rest.head? ≠ some (CodePoint.ofChar '\n')) :
    unifyLineEnds (front ++ rest) = unifyLineEnds front ++ unifyLineEnds rest := by
  induction front with
  | nil => rfl
  | cons c front ih =>
    -- Only the last sign of the front meets the rest.
    cases front with
    | nil =>
      rw [List.singleton_append, unifyLineEnds_cons, unifyLineEnds_cons]
      by_cases hc : c = CodePoint.ofChar '\r'
      · rw [if_pos hc, if_neg (h (congrArg some hc)), if_pos hc]
        rfl
      · rw [if_neg hc, if_neg hc]
        rfl
    | cons d front =>
      rw [List.getLast?_cons_cons] at h
      rw [List.cons_append, unifyLineEnds_cons, unifyLineEnds_cons, ih h]
      by_cases hc : c = CodePoint.ofChar '\r'
      · by_cases hfeed : d = CodePoint.ofChar '\n'
        · simp only [hc, hfeed, List.cons_append, List.head?_cons, if_true]
        · simp only [hc, Option.some.injEq, hfeed, List.cons_append, List.head?_cons, if_true, if_false]
      · rw [if_neg hc, if_neg hc]
        rfl

/-- Right behind a carriage return, a line feed adds nothing. -/
lemma unifyLineEnds_append_feed {front : Text} (h : front.getLast? = some (CodePoint.ofChar '\r'))
    (rest : Text) : unifyLineEnds (front ++ CodePoint.ofChar '\n' :: rest) =
      unifyLineEnds front ++ unifyLineEnds rest := by
  obtain ⟨before, rfl⟩ := List.getLast?_eq_some_iff.mp h
  have hreturn : ∀ behind : Text, unifyLineEnds (before ++ CodePoint.ofChar '\r' :: behind) =
      unifyLineEnds before ++ unifyLineEnds (CodePoint.ofChar '\r' :: behind) := by
    intro behind
    apply unifyLineEnds_append
    intro _ hhead
    exact absurd (Option.some.inj hhead) (by decide)
  have hboth : unifyLineEnds (CodePoint.ofChar '\r' :: CodePoint.ofChar '\n' :: rest) =
      unifyLineEnds [CodePoint.ofChar '\r'] ++ unifyLineEnds rest := rfl
  rw [List.append_assoc, List.singleton_append, hreturn, hreturn, hboth, List.append_assoc]

lemma unifyLineEnds_lineEnd {c : CodePoint} (hc : c.isLineEnd = true) :
    ∃ d, unifyLineEnds [c] = [d] ∧ d.isLineEnd = true := by
  by_cases hreturn : c = CodePoint.ofChar '\r'
  · exact ⟨CodePoint.ofChar '\n', by rw [hreturn]; rfl, by decide⟩
  · exact ⟨c, by rw [unifyLineEnds_cons, if_neg hreturn]; rfl, hc⟩

/-- A text that ends with a line end still does so when its line ends are unified. -/
lemma isLineEnd_getLast?_unifyLineEnds {t : Text} (h : ∀ c ∈ t.getLast?, c.isLineEnd = true) :
    ∀ c ∈ t.unifyLineEnds.getLast?, c.isLineEnd = true := by
  have hplain : ∀ (front : Text) (last : CodePoint), last.isLineEnd = true →
      (front.getLast? = some (CodePoint.ofChar '\r') → last ≠ CodePoint.ofChar '\n') →
      ∀ c ∈ (unifyLineEnds (front ++ [last])).getLast?, c.isLineEnd = true := by
    intro front last hlast hseam c hc
    obtain ⟨d, hd, hend⟩ := unifyLineEnds_lineEnd hlast
    have hparts : unifyLineEnds (front ++ [last]) = unifyLineEnds front ++ unifyLineEnds [last] :=
      unifyLineEnds_append fun hfront hhead => hseam hfront (Option.some.inj hhead)
    rw [hparts, hd, List.getLast?_concat] at hc
    rwa [← Option.some.inj hc]
  rcases List.eq_nil_or_concat' t with rfl | ⟨front, last, rfl⟩
  · exact h
  by_cases hseam : front.getLast? = some (CodePoint.ofChar '\r') ∧ last = CodePoint.ofChar '\n'
  · obtain ⟨hfront, rfl⟩ := hseam
    obtain ⟨before, rfl⟩ := List.getLast?_eq_some_iff.mp hfront
    rw [unifyLineEnds_append_feed hfront]
    simpa [unifyLineEnds] using hplain before (CodePoint.ofChar '\r') (by decide) fun _ => by decide
  · exact hplain front last (h last (by simp)) fun hfront hlast => hseam ⟨hfront, hlast⟩

/-- The text of a file to which a line of visible signs was added. -/
lemma decode_append_line {bytes : Bytes} {t : Text} (ht : Utf8.decode bytes = .ok t)
    (hline : line.IsVisible) (hne : line ≠ []) :
    (Utf8.decode (bytes ++ Utf8.encode (line ++ "\n"))).map unifyLineEnds =
      .ok (t.unifyLineEnds ++ (line ++ "\n")) := by
  have hsigns : ∀ c ∈ line ++ "\n", c.IsVisible ∨ c = CodePoint.ofChar '\n' := by
    intro c hc
    rcases List.mem_append.mp hc with hc | hc
    · exact .inl (hline c hc)
    · exact .inr (List.mem_singleton.mp hc)
  have hascii : ∀ c ∈ line ++ "\n", c.isAscii = true := by
    intro c hc
    rcases hsigns c hc with hvisible | rfl
    · exact hvisible.isAscii
    · rfl
  have hreturn : CodePoint.ofChar '\r' ∉ line ++ "\n" := by
    intro hc
    rcases hsigns _ hc with h | h <;> exact absurd h (by decide)
  have hhead : (line ++ "\n").head? ≠ some (CodePoint.ofChar '\n') := by
    obtain ⟨c, more, rfl⟩ := List.exists_cons_of_ne_nil hne
    rintro h
    have hvisible := hline c List.mem_cons_self
    rw [Option.some.inj h] at hvisible
    exact absurd hvisible (by decide)
  have hdecode := Utf8.decodeFrom_append ht fun position => Utf8.decodeFrom_ascii position hascii
  rw [Utf8.decode, hdecode, Except.map, unifyLineEnds_append fun _ => hhead, unifyLineEnds_of_notMem hreturn]

end CommandWrap.Text

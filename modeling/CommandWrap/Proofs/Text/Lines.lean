import Mathlib
import CommandWrap.Proofs.Text.Utf8

/-! Lines of visible signs, kept as UTF-8 and read back. -/
namespace CommandWrap

namespace CodePoint

lemma IsVisible.isAscii {c : CodePoint} (hc : c.IsVisible) : c.isAscii = true := by
  simp only [IsVisible] at hc
  simp only [CodePoint.isAscii, decide_eq_true_eq]
  omega

lemma IsVisible.isLineEnd {c : CodePoint} (hc : c.IsVisible) : c.isLineEnd = false := by
  simp only [IsVisible] at hc
  simp only [CodePoint.isLineEnd, inRanges, List.any_cons, List.any_nil, Bool.or_false,
    Bool.or_eq_false_iff, Bool.and_eq_false_iff, decide_eq_false_iff_not]
  omega

end CodePoint

namespace Text

lemma unifyLineEnds_of_notMem {t : Text} (ht : CodePoint.ofChar '\r' ∉ t) : t.unifyLineEnds = t := by
  induction t with
  | nil => rfl
  | cons c t ih =>
    have hc : c ≠ CodePoint.ofChar '\r' := by
      rintro rfl
      exact ht List.mem_cons_self
    rw [unifyLineEnds, if_neg hc, ih fun h => ht (List.mem_cons_of_mem _ h)]

lemma splitLines_append {line : Text} (hline : ∀ c ∈ line, c.isLineEnd = false) (rest : Text) :
    splitLines (line ++ CodePoint.ofChar '\n' :: rest) = line :: splitLines rest := by
  induction line with
  | nil =>
    rw [List.nil_append, splitLines, if_pos (by decide)]
  | cons c line ih =>
    rw [List.cons_append, splitLines, if_neg (by simp [hline c List.mem_cons_self]),
      ih fun d hd => hline d (List.mem_cons_of_mem _ hd)]

/-- The text of a file that holds these lines. -/
def ofLines (parts : List Text) : Text := parts.flatMap fun line => line ++ "\n"

lemma ofLines_cons (line : Text) (parts : List Text) :
    ofLines (line :: parts) = line ++ CodePoint.ofChar '\n' :: ofLines parts := by
  simp [ofLines, ofString]

lemma ofLines_append (parts more : List Text) : ofLines (parts ++ more) = ofLines parts ++ ofLines more :=
  List.flatMap_append

lemma splitLines_ofLines {parts : List Text} (hparts : ∀ line ∈ parts, line.IsVisible) :
    splitLines (ofLines parts) = parts := by
  induction parts with
  | nil => rfl
  | cons line parts ih =>
    rw [ofLines_cons, splitLines_append fun c hc => (hparts line List.mem_cons_self c hc).isLineEnd,
      ih fun l hl => hparts l (List.mem_cons_of_mem _ hl)]

lemma mem_ofLines {parts : List Text} (hparts : ∀ line ∈ parts, line.IsVisible) {c : CodePoint}
    (hc : c ∈ ofLines parts) : c.IsVisible ∨ c = CodePoint.ofChar '\n' := by
  obtain ⟨line, hline, hc⟩ := List.mem_flatMap.mp hc
  rcases List.mem_append.mp hc with hc | hc
  · exact .inl (hparts line hline c hc)
  · exact .inr (List.mem_singleton.mp hc)

/-- Lines of visible signs are read back from their file. -/
theorem lines_of_bytes {parts : List Text} (hparts : ∀ line ∈ parts, line.IsVisible) :
    (Utf8.decode (Utf8.encode (ofLines parts))).map (fun t => splitLines t.unifyLineEnds) =
      .ok parts := by
  have hascii : ∀ c ∈ ofLines parts, c.isAscii = true := by
    intro c hc
    rcases mem_ofLines hparts hc with h | rfl
    · exact h.isAscii
    · rfl
  have hreturn : CodePoint.ofChar '\r' ∉ ofLines parts := by
    intro hc
    rcases mem_ofLines hparts hc with h | h
    · exact absurd h (by decide)
    · exact absurd h (by decide)
  rw [Utf8.decode_ascii hascii, Except.map, unifyLineEnds_of_notMem hreturn,
    splitLines_ofLines hparts]

end Text
end CommandWrap

import Mathlib
import CommandWrap.CommandLine
import CommandWrap.Proofs.Action
import CommandWrap.Proofs.Json.VisibleText
import CommandWrap.Proofs.Text.Utf8

/-! What can be printed: standard output has bytes for every text but for some surrogates. A report can be
printed if the keys in it can. -/
namespace CommandWrap

namespace Workspace

variable {w : Workspace} {s t : Text} {parts : List Text}

/-- Standard output has bytes for the text. -/
def Prints (w : Workspace) (t : Text) : Prop :=
  ∀ c ∈ t, c.isSurrogate = true → w.printable c = true

lemma encodeError_eq_none_iff_prints {position : Nat} :
    Utf8.encodeError? w.printable position t = none ↔ w.Prints t := by
  rw [Utf8.encodeError_eq_none_iff]
  refine forall₂_congr fun c _ => ?_
  cases c.isSurrogate <;> simp

lemma prints_of_isScalar (h : t.IsScalar) : w.Prints t := by
  intro c hc hsurrogate
  rw [h c hc] at hsurrogate
  cases hsurrogate

lemma prints_append : w.Prints (s ++ t) ↔ w.Prints s ∧ w.Prints t := List.forall_mem_append

lemma prints_lines : w.Prints (Text.lines parts) ↔ ∀ part ∈ parts, w.Prints part := by
  have hfeed : w.Prints (Text.ofString "\n") := prints_of_isScalar (by decide)
  rw [Text.lines, Text.join]
  induction parts with
  | nil => simp [Prints]
  | cons part parts ih =>
    cases parts with
    | nil => simp
    | cons next parts =>
      rw [List.intercalate_cons_cons, prints_append, prints_append, List.forall_mem_cons,
        and_iff_left hfeed]
      exact and_congr_right fun _ => ih

/-! ### Reports -/

lemma prints_ofNat (n : Nat) : w.Prints (Text.ofNat n) :=
  prints_of_isScalar (Text.isVisible_of_isDigit fun _ => Text.isDigit_of_mem_ofNat).isScalar

lemma prints_duration (minutes : Nat) : w.Prints (Report.duration minutes) := by
  have hminutes : w.Prints (Text.ofString "m") := prints_of_isScalar (by decide)
  have hhours : w.Prints (Text.ofString "h ") := prints_of_isScalar (by decide)
  rw [Report.duration]
  split_ifs
  · exact prints_append.mpr ⟨prints_ofNat _, hminutes⟩
  · simp only [prints_append]
    exact ⟨⟨⟨prints_ofNat _, hhours⟩, prints_ofNat _⟩, hminutes⟩

lemma prints_row {width : Nat} {entry : Text × Nat} :
    w.Prints (Report.row width entry) ↔ w.Prints entry.1 := by
  have hspaces : ∀ n, w.Prints (List.replicate n (CodePoint.ofChar ' ')) := fun n =>
    prints_of_isScalar fun c hc => by rw [List.eq_of_mem_replicate hc]; decide
  have hnoun : w.Prints (Text.ofString (if entry.2 = 1 then " rewrite" else " rewrites")) := by
    split_ifs <;> exact prints_of_isScalar (by decide)
  have hindent : w.Prints (Text.ofString "  ") := prints_of_isScalar (by decide)
  have hdash : w.Prints (Text.ofString "  - ") := prints_of_isScalar (by decide)
  simp only [Report.row, Text.padRight, prints_append, hspaces, hindent, hdash, hnoun, prints_ofNat,
    and_true, true_and]

/-- The report on a tally can be printed if its keys can. -/
theorem prints_render {tally : Tally} (hempty : tally.total = 0 → tally.counts = []) (minutes : Nat) :
    w.Prints (Report.render minutes tally) ↔ ∀ entry ∈ tally.counts, w.Prints entry.1 := by
  have hheader : w.Prints (Text.ofString "RTK Session Stats (" ++ Report.duration minutes ++
      Text.ofString ")") := by
    simp only [prints_append]
    exact ⟨⟨prints_of_isScalar (by decide), prints_duration minutes⟩, prints_of_isScalar (by decide)⟩
  rw [Report.render]
  dsimp only
  split_ifs with htotal
  · rw [hempty htotal, prints_lines]
    refine iff_of_true ?_ (by simp)
    simp only [List.forall_mem_cons]
    exact ⟨hheader, prints_of_isScalar (by decide), by simp⟩
  · have htotals : w.Prints (Text.ofString "Total rewrites: " ++ Text.ofNat tally.total) :=
      prints_append.mpr ⟨prints_of_isScalar (by decide), prints_ofNat _⟩
    have hnone : w.Prints [] := prints_of_isScalar (by decide)
    rw [prints_lines]
    simp only [List.cons_append, List.nil_append, List.forall_mem_cons, List.forall_mem_map, prints_row]
    rw [and_iff_right hheader, and_iff_right htotals, and_iff_right hnone]
    exact forall_congr' fun entry => imp_congr_left (List.mergeSort_perm _ _).mem_iff

end Workspace

namespace CommandLine

open CommandWrap.Action

lemma outcome_print (t : Text) (w : Workspace) : (print t).outcome w =
    match Utf8.encodeError? w.printable 0 t with
    | some error => (.error (.unprintable error), w)
    | none => (.ok (printed t), w) := by
  rw [print, outcome_bind, outcome_get]
  dsimp only
  cases Utf8.encodeError? w.printable 0 t <;> rfl

lemma outcome_print_of_prints {w : Workspace} {t : Text} (h : w.Prints t) :
    (print t).outcome w = (.ok (printed t), w) := by
  rw [outcome_print, Workspace.encodeError_eq_none_iff_prints.mpr h]

lemma outcome_print_of_not_prints {w : Workspace} {t : Text} (h : ¬ w.Prints t) :
    ∃ error, (print t).outcome w = (.error (.unprintable error), w) := by
  rw [outcome_print]
  cases herror : Utf8.encodeError? w.printable 0 t with
  | some error => exact ⟨error, rfl⟩
  | none => exact absurd (Workspace.encodeError_eq_none_iff_prints.mp herror) h

end CommandLine
end CommandWrap

import Mathlib
import CommandWrap.Shell.Lexer

/-! A reader leaves the end of the text it was given. -/
namespace CommandWrap.Shell

/-- Where the reader succeeds, what it leaves is the end of the text. -/
def Leaves (e : Enclosed) (t : Text) : Prop := ∀ read rest, e = some (read, rest) → rest <:+ t

section Leaves

variable {e : Enclosed} {s t : Text}

lemma leaves_none (t : Text) : Leaves none t := by simp [Leaves]

lemma leaves_some {read rest : Text} (h : rest <:+ t) : Leaves (some (read, rest)) t := by
  intro read' rest' he
  obtain ⟨rfl, rfl⟩ := Prod.mk.inj (Option.some.inj he)
  exact h

lemma Leaves.mono (h : Leaves e s) (hs : s <:+ t) : Leaves e t :=
  fun read rest he => (h read rest he).trans hs

lemma leaves_prepend {front : Text} (h : Leaves e t) : Leaves (Enclosure.prepend front e) t := by
  intro read rest he
  obtain ⟨⟨read', rest'⟩, hfound, hrest⟩ := Option.map_eq_some_iff.mp he
  obtain ⟨-, rfl⟩ := Prod.mk.inj hrest
  exact h read' rest' hfound

lemma leaves_bind {next : Text × Text → Enclosed} (h : Leaves e t)
    (hnext : ∀ read rest, rest <:+ t → Leaves (next (read, rest)) t) : Leaves (e.bind next) t := by
  intro read rest he
  obtain ⟨⟨read', rest'⟩, hfound, hrest⟩ := Option.bind_eq_some_iff.mp he
  exact hnext read' rest' (h read' rest' hfound) read rest hrest

lemma leaves_followed {front : Text} {next : Text → Enclosed} (h : Leaves e t)
    (hnext : ∀ rest, rest <:+ t → Leaves (next rest) t) :
    Leaves (Enclosure.followed front e next) t :=
  leaves_bind h fun _ rest hrest => leaves_prepend (hnext rest hrest)

lemma leaves_ite {p : Prop} [Decidable p] {a b : Enclosed} (ha : p → Leaves a t) (hb : ¬ p → Leaves b t) :
    Leaves (if p then a else b) t := by
  by_cases h : p
  · rw [if_pos h]
    exact ha h
  · rw [if_neg h]
    exact hb h

end Leaves

lemma dropJoins_suffix (t : Text) : dropJoins t <:+ t := by
  fun_induction dropJoins t with
  | case1 c d rest hjoin ih => exact ih.trans ((List.suffix_cons _ _).trans (List.suffix_cons _ _))
  | case2 => exact List.suffix_rfl
  | case3 => exact List.suffix_rfl

lemma suffix_of_dropJoins {c : CodePoint} {rest t : Text} (h : dropJoins t = c :: rest) : rest <:+ t :=
  (List.suffix_cons c rest).trans (h ▸ dropJoins_suffix t)

lemma drop_dropJoins_suffix (n : Nat) (t : Text) : (dropJoins t).drop n <:+ t :=
  (List.drop_suffix _ _).trans (dropJoins_suffix t)

namespace Enclosure

lemma single_leaves (t : Text) : Leaves (single t) t := by
  induction t with
  | nil => exact leaves_none _
  | cons c rest ih =>
    rw [single]
    exact leaves_ite (fun _ => leaves_some (List.suffix_cons _ _))
      fun _ => leaves_prepend (ih.mono (List.suffix_cons _ _))

lemma escapedSingle_leaves (t : Text) : Leaves (escapedSingle t) t := by
  fun_induction escapedSingle t with
  | case1 => exact leaves_none _
  | case2 rest => exact leaves_some (List.suffix_cons _ _)
  | case3 => exact leaves_none _
  | case4 d rest hquote ih =>
    exact leaves_prepend (ih.mono ((List.suffix_cons _ _).trans (List.suffix_cons _ _)))
  | case5 c rest hquote hslash ih => exact leaves_prepend (ih.mono (List.suffix_cons _ _))

lemma backquoted_leaves (fuel : Nat) (t : Text) : Leaves (backquoted fuel t) t := by
  induction fuel generalizing t with
  | zero => exact leaves_none _
  | succ fuel ih =>
    rw [backquoted.eq_def]
    dsimp only
    split
    · exact leaves_none _
    · rename_i c rest h
      have hrest := suffix_of_dropJoins h
      refine leaves_ite (fun _ => leaves_some hrest) fun _ => leaves_ite (fun _ => ?_) fun _ => ?_
      · split
        · exact leaves_none _
        · exact leaves_prepend ((ih _).mono ((List.suffix_cons _ _).trans hrest))
      · exact leaves_prepend ((ih _).mono hrest)

/-- All readers of enclosed parts leave the end of their text. -/
structure PartsLeave (fuel : Nat) : Prop where
  quote : ∀ dollar c t, Leaves (quote fuel dollar c t) t
  dollarPart : ∀ c t, Leaves (dollarPart fuel c t) t
  double : ∀ dollar t, Leaves (double fuel dollar t) t
  braced : ∀ dollar t, Leaves (braced fuel dollar t) t
  balanced : ∀ opening closing depth dollar t, Leaves (balanced fuel opening closing depth dollar t) t
  substituted : ∀ s t, Leaves (substituted fuel s t) t

variable {rest t : Text} {next : Text → Enclosed}

lemma leaves_next (hnext : ∀ t, Leaves (next t) t) {front : Text} {e : Enclosed} (he : Leaves e rest)
    (hrest : rest <:+ t) : Leaves (followed front e next) t :=
  leaves_followed (he.mono hrest) fun behind hbehind => (hnext behind).mono hbehind

lemma leaves_escape (c : CodePoint) (hnext : ∀ t, Leaves (next t) t) :
    rest <:+ t → Leaves (match rest with
      | [] => none
      | d :: rest => prepend [c, d] (next rest)) t := by
  intro hrest
  cases rest with
  | nil => exact leaves_none _
  | cons d rest => exact leaves_prepend ((hnext rest).mono ((List.suffix_cons _ _).trans hrest))

/-- The end of the reader of a `$(…)`, at a sign that no keyword or here-document is read from. -/
lemma leaves_substitutedTail {fuel : Nat} (ih : PartsLeave fuel) (s : Substitution) (c : CodePoint)
    (rest : Text) : rest <:+ t →
    Leaves (let s := (s.trackParens c).push c
      if s.depth = 0 then some (s.read, rest)
      else if c = '\\' then
        match rest with
        | [] => none
        | d :: rest => substituted fuel { s.push d with dollar := false } rest
      else if c.isShellQuote then
        (Enclosure.quote fuel s.dollar c rest).bind fun (read, rest) =>
          substituted fuel { s with read := read.reverse ++ s.read, dollar := false } rest
      else if s.dollar && opensBehindDollar c then
        let depth := if c = '(' ∧ !s.inCase then s.depth - 1 else s.depth
        (dollarPart fuel c rest).bind fun (read, rest) =>
          substituted fuel
            { s with read := read.reverse ++ s.read, depth := depth, dollar := false } rest
      else substituted fuel { s with dollar := c = '$' && !s.dollar } rest) t := by
  intro hx
  dsimp only
  refine leaves_ite (fun _ => leaves_some hx) fun _ => leaves_ite (fun _ => ?_) fun _ =>
    leaves_ite (fun _ => ?_) fun _ => leaves_ite (fun _ => ?_) fun _ => (ih.substituted _ rest).mono hx
  · split
    · exact leaves_none _
    · exact (ih.substituted _ _).mono ((List.suffix_cons _ _).trans hx)
  · exact leaves_bind ((ih.quote _ c rest).mono hx) fun _ behind hbehind =>
      (ih.substituted _ behind).mono hbehind
  · exact leaves_bind ((ih.dollarPart c rest).mono hx) fun _ behind hbehind =>
      (ih.substituted _ behind).mono hbehind

lemma partsLeave (fuel : Nat) : PartsLeave fuel := by
  induction fuel with
  | zero =>
    constructor <;> intros <;> exact leaves_none _
  | succ fuel ih =>
    -- A reader calls the others with less fuel, on what is left behind the signs that it took.
    constructor
    case quote =>
      intro dollar c t
      rw [Enclosure.quote.eq_def]
      dsimp only
      exact leaves_ite (fun _ => ih.double _ t) fun _ =>
        leaves_ite (fun _ => backquoted_leaves fuel t) fun _ =>
        leaves_ite (fun _ => escapedSingle_leaves t) fun _ => single_leaves t
    case dollarPart =>
      intro c t
      rw [Enclosure.dollarPart.eq_def]
      dsimp only
      refine leaves_ite (fun _ => leaves_ite (fun _ => ih.balanced _ _ _ _ t) fun _ => ?_) fun _ =>
        leaves_ite (fun _ => ih.braced _ t) fun _ => ih.balanced _ _ _ _ t
      intro read rest he
      obtain ⟨⟨read', rest'⟩, hfound, hrest⟩ := Option.map_eq_some_iff.mp he
      obtain ⟨-, rfl⟩ := Prod.mk.inj hrest
      exact ih.substituted _ t _ _ hfound
    case double =>
      intro dollar t
      rw [Enclosure.double.eq_def]
      dsimp only
      split
      · exact leaves_none _
      · rename_i c rest h
        have hrest := suffix_of_dropJoins h
        exact leaves_ite (fun _ => leaves_some hrest) fun _ =>
          leaves_ite (fun _ => leaves_escape c (ih.double false) hrest) fun _ =>
          leaves_ite (fun _ => leaves_next (ih.double false) (backquoted_leaves fuel rest) hrest) fun _ =>
          leaves_ite (fun _ => leaves_next (ih.double false) (ih.dollarPart c rest) hrest) fun _ =>
          leaves_prepend ((ih.double _ rest).mono hrest)
    case braced =>
      intro dollar t
      rw [Enclosure.braced.eq_def]
      dsimp only
      split
      · exact leaves_none _
      · rename_i c rest h
        have hrest := suffix_of_dropJoins h
        exact leaves_ite (fun _ => leaves_some hrest) fun _ =>
          leaves_ite (fun _ => leaves_escape c (ih.braced false) hrest) fun _ =>
          leaves_ite (fun _ => leaves_next (ih.braced false) (ih.quote dollar c rest) hrest) fun _ =>
          leaves_ite (fun _ => leaves_next (ih.braced false) (ih.dollarPart c rest) hrest) fun _ =>
          leaves_prepend ((ih.braced _ rest).mono hrest)
    case balanced =>
      intro opening closing depth dollar t
      rw [Enclosure.balanced.eq_def]
      dsimp only
      split
      · exact leaves_none _
      · rename_i c rest h
        have hrest := suffix_of_dropJoins h
        exact leaves_ite (fun _ => leaves_some hrest) fun _ =>
          leaves_ite (fun _ => leaves_escape c (ih.balanced opening closing depth false) hrest) fun _ =>
          leaves_ite (fun _ => leaves_next (ih.balanced opening closing depth false)
            (ih.quote dollar c rest) hrest) fun _ =>
          leaves_prepend ((ih.balanced _ _ _ _ rest).mono hrest)
    case substituted =>
      intro s t
      rw [Enclosure.substituted.eq_def]
      dsimp only
      split
      · exact leaves_none _
      · rename_i c rest h
        have hrest : rest <:+ t := by
          split_ifs at h
          · exact h ▸ List.suffix_cons c rest
          · exact suffix_of_dropJoins h
        have hdrop : (dropJoins rest).drop 1 <:+ t := (drop_dropJoins_suffix 1 rest).trans hrest
        refine leaves_ite (fun _ => (ih.substituted _ rest).mono hrest) fun _ => ?_
        refine leaves_ite (fun _ => (ih.substituted _ rest).mono hrest) fun _ => ?_
        refine leaves_ite (fun _ => (ih.substituted _ _).mono hdrop) fun _ => ?_
        refine leaves_ite (fun _ => (ih.substituted _ rest).mono hrest) fun _ => ?_
        refine leaves_ite (fun _ => (ih.substituted _ rest).mono hrest) fun _ => ?_
        refine leaves_ite (fun _ => ?_) fun _ => ?_
        · split
          · exact leaves_none _
          · exact leaves_ite (fun _ => (ih.substituted _ _).mono ((drop_dropJoins_suffix 1 _).trans hdrop))
              fun _ => leaves_ite (fun _ => (ih.substituted _ _).mono hdrop)
              fun _ => (ih.substituted _ _).mono hdrop
        · refine leaves_substitutedTail ih _ _ _ ?_
          by_cases hlt : c = CodePoint.ofChar '<'
          · rw [if_pos hlt]
            split
            · exact hrest
            · exact (suffix_of_dropJoins ‹_›).trans hrest
          · rw [if_neg hlt]
            exact hrest

end Enclosure
end CommandWrap.Shell

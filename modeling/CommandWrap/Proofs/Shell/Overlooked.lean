import Mathlib
import CommandWrap.Proofs.Shell.Lexing
import CommandWrap.Proofs.Shell.Shape

/-! What makes more than a simple command of a line without pipes and semicolons. -/
namespace CommandWrap.Shell

/-- The token runs another command, perhaps inside a word, or starts a here-document or a
here-string. -/
def Token.Hides (expand : Grammar.Expand) : Token → Prop
  | .background | .andIf | .openParen => True
  | token => token.Nests expand

lemma Token.Nests.hides {expand : Grammar.Expand} {token : Token} (h : token.Nests expand) :
    token.Hides expand := by
  cases token <;> first | exact h | trivial

namespace Shape

open Grammar Script

/-- The text behind the last token of the first line. -/
def behindFirstLine (text : Text) : Text :=
  ((firstLine (Lexer.tokens text)).getLast?.map (·.behind)).getD text

/-- More runs than the command that the text starts with: on its line, or one sign behind it. -/
def Overlooked (depth : Nat) (text : Text) : Prop :=
  (∃ placed ∈ firstLine (Lexer.tokens text), placed.token.Hides (expandWord depth)) ∨
    ∃ placed ∈ Lexer.tokens ((behindFirstLine text).drop 1), isNewline placed.token = false

variable {depth : Nat} {text t last behind : Text} {ts after : List Placed} {trees : List Tree}
  {placed : Placed}

/-- The first line, if it is a word and elements. -/
lemma firstLine_of_elements (htokens : Lexer.tokens text = ⟨.word t, last⟩ :: ts)
    (h : Elements (expandWord depth) last ts trees behind (placed :: after))
    (hline : isNewline placed.token = true) :
    ∃ read, firstLine (Lexer.tokens text) = ⟨.word t, last⟩ :: read ∧ ts = read ++ placed :: after ∧
      behindFirstLine text = behind ∧ (∀ other ∈ read, other.token.IsPart) ∧
      (Tree.anyHasNested trees = true ↔ ∃ other ∈ read, other.token.Nests (expandWord depth)) := by
  obtain ⟨read, rfl, hbehind, hpart, hnests⟩ := h.spec
  have hfirst : firstLine (Lexer.tokens text) = ⟨.word t, last⟩ :: read := by
    rw [htokens, firstLine, List.takeWhile_cons_of_pos rfl]
    have hstop : firstLine (placed :: after) = [] := by simp [firstLine, hline]
    have hread : firstLine (read ++ placed :: after) = read ++ firstLine (placed :: after) :=
      firstLine_append hpart
    rw [hstop, List.append_nil] at hread
    exact congrArg _ hread
  refine ⟨read, hfirst, rfl, ?_, hpart, hnests⟩
  rw [behindFirstLine, hfirst, hbehind, List.getLast?_cons]
  cases read.getLast? <;> rfl

lemma lineEnd_of_not_nests (htokens : Lexer.tokens text = ⟨.word t, last⟩ :: (ts ++ placed :: after))
    (hline : isNewline placed.token = true) (h : ∀ other ∈ ts, ¬ other.token.Nests (expandWord depth)) :
    lineEnd behind placed = behind := by
  obtain ⟨documents, hdocuments⟩ : ∃ documents, placed.token = .newline documents := by
    cases htoken : placed.token <;> simp [htoken, isNewline] at hline
    exact ⟨_, rfl⟩
  have hread : ∀ other ∈ ⟨.word t, last⟩ :: ts, ∀ stripTabs,
      other.token ≠ .redirection (.hereDocument stripTabs) := by
    intro other hother stripTabs hdocument
    rcases List.mem_cons.mp hother with rfl | hother
    · cases hdocument
    · have := h other hother
      rw [hdocument] at this
      exact this trivial
  rw [Lexer.tokens, ← List.cons_append] at htokens
  have hnone := Lexer.newline_without_documents (Lexer.ended_closed text) htokens rfl (by simp) hread
    hdocuments
  rw [lineEnd, if_neg]
  rintro ⟨htrue, -⟩
  rw [hdocuments, hnone] at htrue
  cases htrue

/-- Where no pipe and no semicolon joins commands, what can be parsed is simple unless something is
overlooked. -/
theorem ofText_eq_simple_iff_not_overlooked (htokens : Lexer.tokens text = ⟨.word t, last⟩ :: ts)
    (hparse : ofText depth text ≠ .unparseable)
    (hsigns : ∀ other ∈ ts, Lexer.sign? other.token = none) :
    ofText depth text = .simple ↔ ¬ Overlooked depth text := by
  rw [ofText_eq_simple_iff_standsAlone htokens]
  constructor
  · rintro ⟨⟨parts, hparts, hplain⟩, trees, behind, placed, after, helements, hline, -, hnested, halone⟩
    obtain ⟨read, hfirst, rfl, hbehind, hpart, hnests⟩ := firstLine_of_elements htokens helements hline
    have hread : ∀ other ∈ read, ¬ other.token.Nests (expandWord depth) := fun other hother hnest => by
      simp [hnests.mpr ⟨other, hother, hnest⟩] at hnested
    -- What hides in the first line would nest something, and a later line would hold a command.
    rintro (⟨other, hother, hhides⟩ | ⟨other, hother, hmore⟩)
    · rw [hfirst] at hother
      rcases List.mem_cons.mp hother with rfl | hother
      · obtain ⟨parts', hparts', hnest⟩ := hhides
        obtain rfl := Option.some.inj (hparts.symm.trans hparts')
        simp [hplain] at hnest
      · have hispart := hpart other hother
        cases htoken : other.token <;> rw [htoken] at hhides hispart <;>
          first | exact hispart | exact hread other hother (htoken ▸ hhides)
    · rw [lineEnd_of_not_nests htokens hline hread, ← hbehind] at halone
      rw [first?_eq_none_iff.mp halone other hother] at hmore
      cases hmore
  · intro hoverlooked
    obtain ⟨phrase, hphrase⟩ := exists_first? hparse
    have hhides : ∀ other ∈ firstLine ts, ¬ other.token.Hides (expandWord depth) := by
      intro other hother hhides
      refine hoverlooked (.inl ⟨other, ?_, hhides⟩)
      rw [htokens, firstLine, List.takeWhile_cons_of_pos rfl]
      exact List.mem_cons_of_mem _ hother
    -- The first command is a simple one: nothing in the first line joins it to another.
    rcases first?_cases htokens hphrase with ⟨e, placed, after, hsimple, hline, hafter, -⟩ | ⟨-, hjoined⟩
    · obtain ⟨parts, trees, hparts, helements, -⟩ := hsimple
      obtain ⟨read, hfirst, rfl, hbehind, hpart, hnests⟩ := firstLine_of_elements htokens helements hline
      have hnot : ∀ other ∈ ⟨.word t, last⟩ :: read, ¬ other.token.Nests (expandWord depth) :=
        fun other hother hnest => hoverlooked (.inl ⟨other, hfirst ▸ hother, hnest.hides⟩)
      have hread := (List.forall_mem_cons.mp hnot).2
      refine ⟨⟨parts, hparts, ?_⟩, trees, e.behind, placed, after, helements, hline, hafter, ?_, ?_⟩
      · refine (Bool.not_eq_true _).mp fun hnested => hnot _ List.mem_cons_self ⟨parts, hparts, hnested⟩
      · refine (Bool.not_eq_true _).mp fun hnested => ?_
        obtain ⟨other, hother, hnest⟩ := hnests.mp hnested
        exact hread other hother hnest
      · rw [lineEnd_of_not_nests htokens hline hread, ← hbehind, first?_eq_none_iff]
        intro other hother
        exact (Bool.not_eq_false _).mp fun hmore => hoverlooked (.inr ⟨other, hother, hmore⟩)
    · obtain ⟨other, hother, hjoins⟩ := hjoined
      have hsign := hsigns other ((List.takeWhile_sublist _).subset hother)
      refine absurd ?_ (hhides other hother)
      cases htoken : other.token <;> rw [htoken] at hjoins hsign <;>
        first | exact hjoins.elim | exact trivial | cases hsign

end Shape
end CommandWrap.Shell

import Mathlib
import CommandWrap.Proofs.Composition
import CommandWrap.Proofs.Pattern
import CommandWrap.Proofs.Rewriting
import CommandWrap.Proofs.Shell.Overlooked
import CommandWrap.Proofs.Shell.Splicing

/-! What a shell makes of a command that is rewritten under the default settings. -/
namespace CommandWrap

open Shell Shell.Lexer

/-! ### The first word -/

lemma Shell.Lexer.IsBare.not_isBlank {c : CodePoint} (h : IsBare c) : c.isBlank = false := by
  simp only [IsBare] at h
  simp only [CodePoint.isBlank, CodePoint.inRanges, List.any_cons, List.any_nil, Bool.or_false,
    Bool.or_eq_false_iff, Bool.and_eq_false_iff, decide_eq_false_iff_not]
  omega

namespace Text

/-- Nothing or a space is next. -/
def SpaceNext (t : Text) : Prop := ∀ c ∈ t.head?, c = CodePoint.ofChar ' '

instance (t : Text) : Decidable t.SpaceNext := inferInstanceAs (Decidable (∀ c ∈ t.head?, _))

lemma SpaceNext.append {s t : Text} (hs : s.SpaceNext) (ht : t.SpaceNext) : SpaceNext (s ++ t) := by
  intro c hc
  cases s with
  | nil => exact ht c hc
  | cons d s => exact hs c hc

lemma SpaceNext.separatorNext {t : Text} (h : t.SpaceNext) : SeparatorNext (t ++ Text.ofString "\n") := by
  cases t with
  | nil => exact .inr rfl
  | cons c t =>
    obtain rfl := h c rfl
    exact .inl rfl

lemma head_bare {w rest : Text} (hw : IsBareWord w) (hrest : rest.SpaceNext) : head (w ++ rest) = w := by
  obtain ⟨hne, hbare, -⟩ := hw
  have hword : w.IsWord := ⟨hne, fun c hc => (hbare c hc).not_isBlank⟩
  apply head_of_words
  apply words_append hword
  intro c hc
  rw [hrest c hc]
  exact isBlank_space

end Text

/-! ### What is spliced -/

/-- The first word of the command gives way to the compressor and a word, or to the compressor and
itself. -/
structure Spliced (command rewritten w v rest : Text) : Prop where
  first : IsBareWord w
  second : IsBareWord v
  space : rest.SpaceNext
  command : command = w ++ rest
  rewritten : rewritten = Rewriting.compressor ++ CodePoint.ofChar ' ' :: (v ++ rest)

lemma isBareWord_head_of_mem_defaultPatterns : ∀ pattern ∈ defaultPatterns,
    IsBareWord pattern.head ∧ Text.SpaceNext (pattern.drop pattern.head.length) ∧
      pattern.head ++ pattern.drop pattern.head.length = pattern := by decide +kernel

lemma isBareWord_drop_of_mem_defaultAliases : ∀ entry ∈ defaultAliases,
    IsBareWord (entry.2.drop 4) ∧
      entry.2 = Rewriting.compressor ++ CodePoint.ofChar ' ' :: entry.2.drop 4 := by decide +kernel

lemma spliced_of_decision {command rewritten : Text} {kind : RewriteKind}
    (h : ({} : Settings).decision command = .rewritten kind rewritten) :
    ∃ w v rest, Spliced command.trim rewritten w v rest := by
  obtain ⟨-, -, -, hfits, -, rfl⟩ := Settings.decision_rewritten h
  rw [Pattern.anyFits, Pattern.firstFit?, List.find?_isSome] at hfits
  obtain ⟨pattern, hmem, hfit⟩ := hfits
  obtain ⟨hbare, hdrop, hsplit⟩ := isBareWord_head_of_mem_defaultPatterns pattern hmem
  obtain ⟨behind, hcommand, hbehind⟩ := Pattern.exists_behind_of_fits hfit
  have hrest := hdrop.append hbehind
  rw [← hsplit, List.append_assoc] at hcommand
  rw [Rewriting.rewrite_trim, hcommand, Text.head_bare hbare hrest, List.drop_left]
  split
  · rename_i replacement hget
    obtain ⟨hv, hreplacement⟩ : IsBareWord (replacement.drop 4) ∧
        replacement = Rewriting.compressor ++ CodePoint.ofChar ' ' :: replacement.drop 4 :=
      isBareWord_drop_of_mem_defaultAliases _ (Entries.mem_of_get? hget)
    refine ⟨_, _, _, hbare, hv, hrest, rfl, ?_⟩
    nth_rewrite 1 [hreplacement]
    exact List.append_assoc _ _ _
  · exact ⟨_, _, _, hbare, hbare, hrest, rfl, List.append_assoc _ _ _⟩

/-! ### The tokens of both -/

namespace Spliced

variable {command rewritten w v rest : Text}

/-- The tokens behind the first word of the command are those behind the second one of what it is
rewritten to. -/
lemma tokens (h : Spliced command rewritten w v rest)
    (hlast : command.getLast? ≠ some (CodePoint.ofChar '\n')) :
    ∃ behind behind' ts, Lexer.tokens command = ⟨.word w, behind⟩ :: ts ∧
      Lexer.tokens rewritten = ⟨.word Rewriting.compressor, behind'⟩ :: ⟨.word v, behind⟩ :: ts := by
  have hlast' : (v ++ rest).getLast? ≠ some (CodePoint.ofChar '\n') := by
    cases rest with
    | nil =>
      intro hline
      rw [List.append_nil] at hline
      exact absurd (h.second.2.1 _ (List.mem_of_getLast? hline)) (by decide)
    | cons c rest =>
      rw [h.command] at hlast
      rwa [List.getLast?_append_of_ne_nil _ (List.cons_ne_nil c rest)] at hlast ⊢
  have hcompressor : IsBareWord Rewriting.compressor := by decide +kernel
  have hcommand := tokens_bare h.first h.space.separatorNext (h.command ▸ hlast)
  have hrewritten := tokens_bare_bare (w := w) hcompressor h.second h.space.separatorNext hlast'
  rw [← h.command] at hcommand
  rw [← h.rewritten] at hrewritten
  exact ⟨_, _, _, hcommand, hrewritten⟩

lemma isPlainWord_bare {depth : Nat} {w : Text} (hw : IsBareWord w) : Shape.IsPlainWord (expandWord depth) w :=
  ⟨[], expandWithin_bare _ hw, rfl⟩

/-- The splice does not make a simple command of another, nor the other way round. -/
lemma simple_iff (depth : Nat) (h : Spliced command rewritten w v rest)
    (hlast : command.getLast? ≠ some (CodePoint.ofChar '\n')) :
    Shape.ofText depth rewritten = .simple ↔ Shape.ofText depth command = .simple := by
  obtain ⟨behind, behind', ts, hcommand, hrewritten⟩ := h.tokens hlast
  have hcompressor : IsBareWord Rewriting.compressor := by decide +kernel
  rw [Shape.ofText_eq_simple_iff_standsAlone hcommand, Shape.ofText_eq_simple_iff_standsAlone hrewritten,
    Shape.standsAlone_word]
  simp only [isPlainWord_bare hcompressor, isPlainWord_bare h.first, isPlainWord_bare h.second, true_and]

end Spliced

lemma Text.getLast?_trim (t : Text) : t.trim.getLast? ≠ some (CodePoint.ofChar '\n') := fun h =>
  absurd (not_isBlank_getLast?_trim h) (by decide)

lemma sign?_of_isSimple {command : Text} (h : Composition.isSimple command = true) {placed : Placed}
    (hplaced : placed ∈ Lexer.tokens command) : Lexer.sign? placed.token = none := by
  obtain ⟨hbar, hsemicolon⟩ := Composition.not_mem_of_isSimple h
  have hclosed : ∀ c ∈ closed command, c ∈ command ∨ c = CodePoint.ofChar '\n' := by
    intro c hc
    rw [closed] at hc
    split_ifs at hc
    · exact .inl hc
    · simpa [Text.ofString] using hc
  have hmem := sign_mem_of_mem_tokensFrom (ended_closed command) hplaced
  rcases hsign : Lexer.sign? placed.token with _ | d
  · rfl
  · have hd : d = CodePoint.ofChar '|' ∨ d = CodePoint.ofChar ';' := by
      cases htoken : placed.token <;> simp [htoken, sign?] at hsign <;> simp [hsign]
    rcases hclosed d (hmem d hsign) with hin | rfl
    · rcases hd with rfl | rfl
      · exact absurd hin hbar
      · exact absurd hin hsemicolon
    · rcases hd with hd | hd <;> exact absurd hd (by decide)

/-! ### Rewritten commands -/

/-- Rewriting preserves simplicity: what a command is rewritten to is one simple command if the
trimmed command is. -/
theorem ofText_rewritten_eq_simple_iff (depth : Nat) {command rewritten : Text} {kind : RewriteKind}
    (h : ({} : Settings).decision command = .rewritten kind rewritten) :
    Shape.ofText depth rewritten = .simple ↔ Shape.ofText depth command.trim = .simple := by
  obtain ⟨w, v, rest, hspliced⟩ := spliced_of_decision h
  exact hspliced.simple_iff depth (Text.getLast?_trim command)

theorem ofText_rewritten_eq_simple_iff_sample :
    ({} : Settings).decision (Text.ofString " cat a") =
        .rewritten .byAlias (Text.ofString "rtk read a") ∧
      Shape.ofText 94 (Text.ofString "rtk read a") = .simple := by
  have hdecision : ({} : Settings).decision (Text.ofString " cat a") =
      .rewritten .byAlias (Text.ofString "rtk read a") := by decide +kernel
  exact ⟨hdecision, (ofText_rewritten_eq_simple_iff 94 hdecision).mpr (by decide +kernel)⟩

/-- An escaped blank at the end is part of a word, and trimming cuts it off. -/
theorem ofText_rewritten_ne_simple :
    ¬ ∀ command kind rewritten, Shape.ofText 94 command = .simple →
      ({} : Settings).decision command = .rewritten kind rewritten → Shape.ofText 94 rewritten = .simple := by
  intro h
  have hunparseable : Shape.ofText 94 (Text.ofString "rtk ls \\") = .unparseable := by decide +kernel
  have hsimple := h (Text.ofString "ls \\ ") .byPrefix (Text.ofString "rtk ls \\") (by decide +kernel)
    (by decide +kernel)
  rw [hunparseable] at hsimple
  cases hsimple

/-- A command that is rewritten is composed exactly if the check for operators overlooks something. -/
theorem ofText_eq_compound_iff_overlooked (depth : Nat) {command rewritten : Text} {kind : RewriteKind}
    (h : ({} : Settings).decision command = .rewritten kind rewritten) :
    Shape.ofText depth command.trim = .compound ↔
      Shape.ofText depth command.trim ≠ .unparseable ∧ Shape.Overlooked depth command.trim := by
  obtain ⟨w, v, rest, hspliced⟩ := spliced_of_decision h
  obtain ⟨behind, behind', ts, htokens, -⟩ := hspliced.tokens (Text.getLast?_trim command)
  have hsigns : ∀ other ∈ ts, Lexer.sign? other.token = none := fun other hother =>
    sign?_of_isSimple (Settings.decision_rewritten h).simple (htokens ▸ List.mem_cons_of_mem _ hother)
  have hiff := fun hparse : Shape.ofText depth command.trim ≠ .unparseable =>
    Shape.ofText_eq_simple_iff_not_overlooked htokens hparse hsigns
  cases hshape : Shape.ofText depth command.trim with
  | simple =>
    have := (hiff (by simp [hshape])).mp hshape
    simp [this]
  | compound =>
    have := mt (hiff (by simp [hshape])).mpr (by simp [hshape])
    simp [not_not.mp this]
  | unparseable => simp

theorem ofText_eq_compound_iff_overlooked_sample :
    ({} : Settings).decision (Text.ofString "ls -la\nrm x") =
        .rewritten .byPrefix (Text.ofString "rtk ls -la\nrm x") ∧
      Shape.Overlooked 94 (Text.trim (Text.ofString "ls -la\nrm x")) := by
  have hdecision : ({} : Settings).decision (Text.ofString "ls -la\nrm x") =
      .rewritten .byPrefix (Text.ofString "rtk ls -la\nrm x") := by decide +kernel
  exact ⟨hdecision, ((ofText_eq_compound_iff_overlooked 94 hdecision).mp (by decide +kernel)).2⟩

end CommandWrap

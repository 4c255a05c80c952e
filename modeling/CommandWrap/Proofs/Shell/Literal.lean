import Mathlib
import CommandWrap.Proofs.Shell.Shape
import CommandWrap.Proofs.Shell.Splicing

/-! Commands of literal words. Whatever is put between single quotes is a literal, and a text of literals
that stand for nothing else is one simple command. -/
namespace CommandWrap.Shell

open Grammar Script

/-- The text between single quotes. -/
def singleQuoted (t : Text) : Text := CodePoint.ofChar '\'' :: (t ++ [CodePoint.ofChar '\''])

/-- Between single quotes no sign is special, up to the one that closes. -/
lemma Enclosure.single_of_notMem {t : Text} (ht : CodePoint.ofChar '\'' ∉ t) (rest : Text) :
    single (t ++ CodePoint.ofChar '\'' :: rest) = some (t ++ [CodePoint.ofChar '\''], rest) := by
  induction t with
  | nil => rfl
  | cons c t ih =>
    obtain ⟨hc, ht⟩ := not_or.mp (mt List.mem_cons.mpr ht)
    rw [List.cons_append, single, if_neg (Ne.symm hc), ih ht]
    rfl

namespace Lexer

/-! ### Words between single quotes -/

section

variable {t : Text}

lemma getLast?_singleQuoted (t : Text) : (singleQuoted t).getLast? = some (CodePoint.ofChar '\'') := by
  rw [singleQuoted, ← List.cons_append, List.getLast?_concat]

lemma word_singleQuoted (ht : CodePoint.ofChar '\'' ∉ t) {rest : Text} (hrest : SeparatorNext rest)
    {fuel : Nat} (hfuel : (singleQuoted t).length < fuel) :
    word fuel (singleQuoted t ++ rest) = some (singleQuoted t, rest) := by
  have hlength : (singleQuoted t).length = t.length + 2 := by simp [singleQuoted]
  obtain ⟨fuel, rfl⟩ := Nat.exists_eq_add_of_le' (show 2 ≤ fuel by omega)
  have hopen : singleQuoted t ++ rest =
      CodePoint.ofChar '\'' :: (t ++ CodePoint.ofChar '\'' :: rest) := by
    rw [singleQuoted, List.cons_append, List.append_assoc, List.singleton_append]
  -- The word ends behind the closing quote.
  have hstop : word (fuel + 1) rest = some ([], rest) :=
    word_bare (w := []) (by simp) hrest (Nat.succ_pos fuel)
  rw [hopen, word.eq_def]
  dsimp only
  rw [dropJoins_cons (by decide)]
  dsimp only
  rw [if_neg (by decide), if_pos (by decide), Enclosure.quote, if_neg (by decide), if_neg (by decide),
    if_neg Bool.false_ne_true, Enclosure.single_of_notMem ht, Enclosure.followed, Option.bind_some]
  dsimp only
  rw [hstop]
  simp [Enclosure.prepend, singleQuoted]

lemma isLiteral_singleQuoted (ht : CodePoint.ofChar '\'' ∉ t) : IsLiteral (singleQuoted t) where
  read _ hrest _ hfuel := word_singleQuoted ht hrest hfuel
  starts := ⟨_, _, rfl, by decide, by decide, by decide⟩
  noLineEnd := by
    rw [getLast?_singleQuoted]
    decide
  noKeyword := by
    have hstart : ∀ entry ∈ Keyword.table, entry.1.head? ≠ some (CodePoint.ofChar '\'') := by decide
    refine List.lookup_eq_none_iff.mpr fun entry hentry => bne_iff_ne.mpr fun hsame => ?_
    exact hstart entry hentry (hsame ▸ rfl)
  noAssignment := by
    have hfirst : ((CodePoint.ofChar '\'').isLetter ||
        CodePoint.ofChar '\'' = CodePoint.ofChar '_') = false := by
      decide +kernel
    simp only [isAssignment, singleQuoted, hfirst, Bool.false_and]
  noNumber := by
    have hfirst : (CodePoint.ofChar '\'').isDecimal = false := by decide
    rw [singleQuoted, List.all_cons, hfirst, Bool.false_and]

lemma expandWithin_singleQuoted (depth : Nat) (t : Text) :
    expandWithin (depth + 1) (singleQuoted t) = some [] := by
  rw [expandWithin, Expansion.ofWord?, if_pos ⟨rfl, getLast?_singleQuoted t⟩]

end

/-! ### Texts of literals -/

/-- The words, each with a space in front. -/
def spaced (words : List Text) : Text := words.flatMap fun w => CodePoint.ofChar ' ' :: w

variable {depth : Nat} {words : List Text} {context : Context}

lemma separatorNext_spaced (words : List Text) : SeparatorNext (spaced words ++ Text.ofString "\n") := by
  cases words with
  | nil => exact .inr rfl
  | cons w words => exact .inl rfl

/-- A word was read last, and no document is awaited. -/
def BehindWord (context : Context) : Prop := isWord context.last = true ∧ context.awaited = []

lemma BehindWord.contextBehind (h : BehindWord context) (w : Text) :
    BehindWord (contextBehind context (.word w)) := by
  obtain ⟨hlast, hawaited⟩ := h
  obtain ⟨t, ht⟩ := isWord_iff.mp hlast
  refine ⟨rfl, ?_⟩
  simp only [Lexer.contextBehind, ht, hawaited]

/-- The line feed that closes a text ends the command, and nothing is left behind it. -/
lemma standsAlone_newline (hcontext : BehindWord context) {fuel : Nat} (hfuel : 0 < fuel) :
    Shape.StandsAlone (expandWord depth) (Text.ofString "\n")
      (tokensFrom fuel context (Text.ofString "\n")) := by
  obtain ⟨fuel, rfl⟩ := Nat.exists_eq_add_of_le' hfuel
  have htoken : token? context (Text.ofString "\n") = some ⟨.newline false, []⟩ := by
    change some (newline context []) = _
    rw [newline, hcontext.2]
    rfl
  have hnone : ∀ context, tokensFrom fuel context [] = [] := fun _ => by cases fuel <;> rfl
  have hbehind : (lineEnd (Text.ofString "\n") ⟨.newline false, []⟩).drop 1 = [] := by
    rw [lineEnd, if_neg (by simp)]
    rfl
  rw [tokensFrom, htoken]
  dsimp only
  rw [if_neg (by simp), hnone]
  exact ⟨[], _, _, [], .stop rfl, rfl, rfl, rfl, hbehind ▸ rfl⟩

/-- Behind a word, literals that stand for nothing else are the elements of the command. -/
theorem standsAlone_spaced (hwords : ∀ w ∈ words, IsLiteral w ∧ Shape.IsPlainWord (expandWord depth) w)
    (hcontext : BehindWord context) {fuel : Nat} (hfuel : (spaced words ++ Text.ofString "\n").length < fuel) :
    Shape.StandsAlone (expandWord depth) (spaced words ++ Text.ofString "\n")
      (tokensFrom fuel context (spaced words ++ Text.ofString "\n")) := by
  induction words generalizing context fuel with
  | nil => exact standsAlone_newline hcontext (Nat.zero_lt_of_lt hfuel)
  | cons w words ih =>
    obtain ⟨⟨hw, hplain⟩, hwords⟩ := List.forall_mem_cons.mp hwords
    obtain ⟨fuel, rfl⟩ := Nat.exists_eq_add_of_le' (Nat.zero_lt_of_lt hfuel)
    have hnoDuplication : context.last.any Token.isDuplication = false := by
      obtain ⟨t, ht⟩ := isWord_iff.mp hcontext.1
      rw [ht]
      rfl
    have hsplit : spaced (w :: words) ++ Text.ofString "\n" =
        CodePoint.ofChar ' ' :: (w ++ (spaced words ++ Text.ofString "\n")) := by
      simp [spaced]
    have hskip : skipBlanks ((CodePoint.ofChar ' ' :: (w ++ (spaced words ++ Text.ofString "\n"))).length + 1)
        (CodePoint.ofChar ' ' :: (w ++ (spaced words ++ Text.ofString "\n"))) =
          w ++ (spaced words ++ Text.ofString "\n") := by
      rw [List.length_cons, skipBlanks_space, hw.skipBlanks]
    -- A step takes the space and the word off the text, and the context is behind a word again.
    rw [hsplit] at hfuel ⊢
    rw [tokensFrom, hw.token? hnoDuplication (separatorNext_spaced words) hskip]
    dsimp only
    rw [if_neg (by simp), Shape.standsAlone_word]
    refine ⟨hplain, ih hwords (hcontext.contextBehind w) ?_⟩
    simp only [List.length_cons, List.length_append] at hfuel ⊢
    omega

lemma getLast?_append_spaced {w : Text} (hw : IsLiteral w) (hwords : ∀ w ∈ words, IsLiteral w) :
    (w ++ spaced words).getLast? ≠ some (CodePoint.ofChar '\n') := by
  induction words generalizing w with
  | nil => simpa [spaced] using hw.noLineEnd
  | cons v words ih =>
    obtain ⟨hv, hwords⟩ := List.forall_mem_cons.mp hwords
    have hne : v ++ spaced words ≠ [] := by
      obtain ⟨c, more, rfl, -⟩ := hv.starts
      simp
    have hsplit : w ++ spaced (v :: words) = (w ++ [CodePoint.ofChar ' ']) ++ (v ++ spaced words) := by
      simp [spaced]
    rw [hsplit, List.getLast?_append_of_ne_nil _ hne]
    exact ih hv hwords

/-- Literals that stand for nothing else, with spaces between them, are one simple command. -/
theorem ofText_of_literals {w : Text} (hw : IsBareWord w)
    (hwords : ∀ w ∈ words, IsLiteral w ∧ Shape.IsPlainWord (expandWord depth) w) :
    Shape.ofText depth (w ++ spaced words) = .simple := by
  have htokens := tokens_bare hw (separatorNext_spaced words)
    (getLast?_append_spaced hw.isLiteral fun v hv => (hwords v hv).1)
  rw [Shape.ofText_eq_simple_iff_standsAlone htokens]
  exact ⟨⟨[], expandWithin_bare _ hw, rfl⟩, standsAlone_spaced hwords ⟨rfl, rfl⟩ (Nat.lt_succ_self _)⟩

end Lexer
end CommandWrap.Shell

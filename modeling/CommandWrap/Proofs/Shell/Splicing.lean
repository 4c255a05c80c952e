import Mathlib
import CommandWrap.Proofs.Shell.Lexing
import CommandWrap.Shell.Script

/-! Words that are put in front of a text do not change how the rest is cut into tokens. -/
namespace CommandWrap.Shell.Lexer

/-! ### Contexts behind words -/

/-- The contexts end alike, but for the text of words. What stands before the last token matters for
loops and for parentheses only. -/
structure Agrees (a b : Context) : Prop where
  last : a.last = b.last ∨ isWord a.last = true ∧ isWord b.last = true
  loop : a.beforeLast = some (.keyword .forLoop) ↔ b.beforeLast = some (.keyword .forLoop)
  paren : a.last = some .openParen → isWord a.beforeLast = isWord b.beforeLast
  braceAllowed : a.braceAllowed = b.braceAllowed
  awaited : a.awaited = b.awaited

lemma isWord_iff {last : Option Token} : isWord last = true ↔ ∃ t, last = some (.word t) := by
  cases last with
  | none => simp [isWord]
  | some token => cases token <;> simp [isWord]

section Agrees

variable {a b : Context}

/-- What does not depend on the text of words agrees. -/
lemma Agrees.of_last {α : Type} (h : Agrees a b) (f : Option Token → α)
    (hf : ∀ s t, f (some (.word s)) = f (some (.word t))) : f a.last = f b.last := by
  rcases h.last with hlast | ⟨ha, hb⟩
  · rw [hlast]
  · obtain ⟨s, hs⟩ := isWord_iff.mp ha
    obtain ⟨t, ht⟩ := isWord_iff.mp hb
    rw [hs, ht, hf s t]

lemma Agrees.last_eq_iff (h : Agrees a b) {token : Token} (htoken : isWord (some token) = false) :
    a.last = some token ↔ b.last = some token := by
  refine iff_of_eq (h.of_last (· = some token) fun s t => ?_)
  have hne : ∀ s, some (Token.word s) ≠ some token := by
    intro s hs
    rw [← hs] at htoken
    simp [isWord] at htoken
  simp [hne s, hne t]

lemma Agrees.keyword? (h : Agrees a b) (t : Text) : keyword? a t = keyword? b t := by
  have hword := h.of_last isWord fun _ _ => rfl
  have hcommand := h.of_last (·.all Token.startsCommandBehind) fun _ _ => rfl
  have hloop : decide (a.beforeLast = some (.keyword .forLoop)) =
      decide (b.beforeLast = some (.keyword .forLoop)) := decide_eq_decide.mpr h.loop
  rw [Lexer.keyword?, Lexer.keyword?, atCommand, atCommand, hword, hcommand, hloop, h.braceAllowed]

lemma Agrees.classify (h : Agrees a b) (t behind : Text) : classify a t behind = classify b t behind := by
  have hduplication := h.of_last (·.any Token.isDuplication) fun _ _ => rfl
  have hcommand := h.of_last (·.all Token.startsCommandBehind) fun _ _ => rfl
  have hassignment := h.of_last isAssignmentToken fun _ _ => rfl
  rw [Lexer.classify, Lexer.classify, isNumber, isNumber, atCommand, atCommand, hduplication, hcommand,
    hassignment, h.keyword? t]

lemma Agrees.token? (h : Agrees a b) (t : Text) : token? a t = token? b t := by
  have hduplication := h.of_last (·.any Token.isDuplication) fun _ _ => rfl
  have hnewline : ∀ behind, newline a behind = newline b behind := fun behind => by
    rw [newline, newline, h.awaited]
  have hoperator : ∀ c rest, operator? a c rest = operator? b c rest := fun c rest => by
    rw [operator?, operator?, h.awaited]
  simp only [Lexer.token?, h.classify, hduplication, hnewline, hoperator]

lemma Agrees.contextBehind (h : Agrees a b) (token : Token) :
    Agrees (contextBehind a token) (contextBehind b token) := by
  have hfunction : a.last = some (.keyword .function) ↔ b.last = some (.keyword .function) :=
    h.last_eq_iff rfl
  have hparen : a.last = some .openParen ↔ b.last = some .openParen := h.last_eq_iff rfl
  refine ⟨.inl rfl, h.last_eq_iff rfl, fun _ => h.of_last isWord fun _ _ => rfl, ?_, ?_⟩
  · cases token with
    | closeParen complete =>
      simp only [Lexer.contextBehind, h.braceAllowed]
      by_cases hlast : a.last = some .openParen
      · simp [hlast, hparen.mp hlast, h.paren hlast]
      · simp [hlast, mt hparen.mpr hlast]
    | word t => simp only [Lexer.contextBehind, hfunction]
    | _ => simp only [Lexer.contextBehind, h.braceAllowed]
  · cases token with
    | word t =>
      simp only [Lexer.contextBehind]
      -- Last tokens that differ are both words, and no here-document starts behind a word.
      rcases h.last with hlast | ⟨ha, hb⟩
      · rw [hlast, h.awaited]
      · obtain ⟨s, hs⟩ := isWord_iff.mp ha
        obtain ⟨u, hu⟩ := isWord_iff.mp hb
        rw [hs, hu]
        exact h.awaited
    | _ => simp only [Lexer.contextBehind, h.awaited]

theorem Agrees.tokensFrom (h : Agrees a b) (fuel : Nat) (t : Text) :
    tokensFrom fuel a t = tokensFrom fuel b t := by
  induction fuel generalizing a b t with
  | zero => rfl
  | succ fuel ih =>
    rw [Lexer.tokensFrom, Lexer.tokensFrom, h.token? t]
    cases Lexer.token? b t with
    | none => rfl
    | some placed =>
      dsimp only
      rw [ih (h.contextBehind placed.token)]

end Agrees

/-! ### Bare words -/

/-- A small letter or a hyphen. -/
def IsBare (c : CodePoint) : Prop := 0x61 ≤ c.val ∧ c.val ≤ 0x7A ∨ c.val = 0x2D

instance (c : CodePoint) : Decidable (IsBare c) := inferInstanceAs (Decidable (_ ∨ _))

/-- A word that means itself wherever it stands. -/
def IsBareWord (w : Text) : Prop :=
  w ≠ [] ∧ (∀ c ∈ w, IsBare c) ∧ Keyword.ofText? w = none ∧ isAssignment w = false ∧
    w.all CodePoint.isDecimal = false

instance (w : Text) : Decidable (IsBareWord w) := inferInstanceAs (Decidable (_ ∧ _))

/-- A space or a line feed is next. -/
def SeparatorNext (t : Text) : Prop := t.head? = some (' ' : CodePoint) ∨ t.head? = some ('\n' : CodePoint)

lemma IsBare.inert {c : CodePoint} (h : IsBare c) :
    c ≠ CodePoint.ofChar '\\' ∧ c ≠ CodePoint.ofChar '#' ∧ c ≠ CodePoint.ofChar '$' ∧
      c.isShellQuote = false ∧ c.isShellMeta = false ∧ c.isShellBreak = false := by
  have hne : ∀ x : Char, ¬ IsBare x → c ≠ x := fun x hx hc => hx (hc ▸ h)
  have hmeta : c.isShellMeta = false := by simp (disch := decide) [CodePoint.isShellMeta, hne]
  refine ⟨hne _ (by decide), hne _ (by decide), hne _ (by decide), ?_, hmeta, ?_⟩
  · simp (disch := decide) [CodePoint.isShellQuote, hne]
  · simp (disch := decide) [CodePoint.isShellBreak, CodePoint.isShellBlank, hmeta, hne]

lemma dropJoins_cons {c : CodePoint} (hc : c ≠ CodePoint.ofChar '\\') (rest : Text) :
    dropJoins (c :: rest) = c :: rest := by
  cases rest with
  | nil => rfl
  | cons d rest => rw [dropJoins, if_neg fun h => hc h.1]

lemma SeparatorNext.eq_cons {t : Text} (h : SeparatorNext t) :
    ∃ c rest, t = c :: rest ∧ c.isShellBreak = true ∧ c.isShellQuote = false ∧
      c ≠ CodePoint.ofChar '\\' ∧ ¬ (c = '$' ∨ c = '<' ∨ c = '>') := by
  cases t with
  | nil => simp [SeparatorNext] at h
  | cons c rest =>
    refine ⟨c, rest, rfl, ?_⟩
    rcases h with h | h <;> obtain rfl := Option.some.inj h <;> decide

lemma word_bare {w rest : Text} (hw : ∀ c ∈ w, IsBare c) (hrest : SeparatorNext rest) {fuel : Nat}
    (hfuel : w.length < fuel) : word fuel (w ++ rest) = some (w, rest) := by
  induction w generalizing fuel with
  | nil =>
    obtain ⟨c, rest, rfl, hbreak, hquote, hslash, hsign⟩ := hrest.eq_cons
    cases fuel with
    | zero => omega
    | succ fuel =>
      rw [word.eq_def]
      dsimp only
      rw [List.nil_append, dropJoins_cons hslash]
      dsimp only
      rw [if_neg hslash, hquote, if_neg Bool.false_ne_true, if_neg hsign, if_pos hbreak]
  | cons c w ih =>
    obtain ⟨hc, hw⟩ := List.forall_mem_cons.mp hw
    obtain ⟨hslash, -, hdollar, hquote, hmeta, hbreak⟩ := hc.inert
    have hsign : ¬ (c = '$' ∨ c = '<' ∨ c = '>') := by
      rintro (rfl | rfl | rfl)
      · exact hdollar rfl
      · exact absurd hmeta (by decide)
      · exact absurd hmeta (by decide)
    cases fuel with
    | zero => omega
    | succ fuel =>
      rw [List.cons_append, word.eq_def]
      dsimp only
      rw [dropJoins_cons hslash]
      dsimp only
      rw [if_neg hslash, hquote, if_neg Bool.false_ne_true, if_neg hsign, hbreak,
        if_neg Bool.false_ne_true, ih hw (by simpa using hfuel)]
      rfl

/-- A word that is read to its end wherever it stands, and that is no reserved word, assignment or
number there. -/
structure IsLiteral (w : Text) : Prop where
  read : ∀ rest, SeparatorNext rest → ∀ fuel, w.length < fuel → word fuel (w ++ rest) = some (w, rest)
  starts : ∃ c more, w = c :: more ∧ c ≠ CodePoint.ofChar '#' ∧ c ≠ CodePoint.ofChar '\\' ∧
    c.isShellBreak = false
  noLineEnd : w.getLast? ≠ some (CodePoint.ofChar '\n')
  noKeyword : Keyword.ofText? w = none
  noAssignment : isAssignment w = false
  noNumber : w.all CodePoint.isDecimal = false

lemma IsBareWord.isLiteral {w : Text} (h : IsBareWord w) : IsLiteral w where
  read _ hrest _ hfuel := word_bare h.2.1 hrest hfuel
  starts := by
    obtain ⟨c, more, rfl⟩ := List.exists_cons_of_ne_nil h.1
    obtain ⟨hslash, hcomment, -, -, -, hbreak⟩ := (h.2.1 c List.mem_cons_self).inert
    exact ⟨c, more, rfl, hcomment, hslash, hbreak⟩
  noLineEnd hlast := absurd (h.2.1 _ (List.mem_of_getLast? hlast)) (by decide)
  noKeyword := h.2.2.1
  noAssignment := h.2.2.2.1
  noNumber := h.2.2.2.2

namespace IsLiteral

variable {w : Text}

lemma classify (hw : IsLiteral w) (context : Context) (behind : Text) :
    classify context w behind = .word w := by
  have hne : ∀ {t : Text} {k : Keyword}, Keyword.ofText? t = some k → w ≠ t := by
    rintro t k ht rfl
    simp [hw.noKeyword] at ht
  have hno : keyword? context w = none := by
    rw [keyword?, if_neg fun h => hne (k := .inList) rfl h.1, if_neg fun h => hne (k := .openDo) rfl h.1,
      if_neg fun h => hne (k := .openBrace) rfl h.1, hw.noKeyword, ite_self]
  rw [Lexer.classify, isNumber, hw.noNumber, Bool.false_and, Bool.false_and, if_neg Bool.false_ne_true, hno,
    hw.noAssignment, Bool.false_and]
  rfl

/-- The token of a literal, where blanks in front were skipped. -/
lemma token? (hw : IsLiteral w) {context : Context} (hcontext : context.last.any Token.isDuplication = false)
    {rest t : Text} (hrest : SeparatorNext rest) (hskip : skipBlanks (t.length + 1) t = w ++ rest) :
    token? context t = some ⟨.word w, rest⟩ := by
  have hlength : (w ++ rest).length ≤ t.length := (hskip ▸ skipBlanks_suffix _ t).length_le
  rw [List.length_append] at hlength
  have hread : word (t.length + 1) (w ++ rest) = some (w, rest) := hw.read rest hrest _ (by omega)
  have hclassify := hw.classify context rest
  obtain ⟨c, more, rfl, hcomment, -, hbreak⟩ := hw.starts
  have hline : c ≠ CodePoint.ofChar '\n' := by
    rintro rfl
    exact absurd hbreak (by decide)
  have hmeta : c.isShellMeta = false := by
    rw [CodePoint.isShellBreak, Bool.or_eq_false_iff, Bool.or_eq_false_iff] at hbreak
    exact hbreak.1.1
  rw [List.cons_append] at hskip hread
  rw [Lexer.token?, hskip]
  dsimp only
  rw [if_neg hcomment, if_neg hline, hmeta, if_neg Bool.false_ne_true, hcontext,
    if_neg fun h => Bool.false_ne_true h.2, hread]
  dsimp only
  rw [hclassify]

lemma skipBlanks (hw : IsLiteral w) (rest : Text) (fuel : Nat) :
    skipBlanks (fuel + 1) (w ++ rest) = w ++ rest := by
  obtain ⟨c, more, rfl, -, hslash, hbreak⟩ := hw.starts
  have hblank : ¬ c.isShellBlank = true := fun h => by simp [CodePoint.isShellBreak, h] at hbreak
  rw [List.cons_append, skipBlanks.eq_def]
  dsimp only
  rw [dropJoins_cons hslash]
  dsimp only
  rw [if_neg hblank]

end IsLiteral

lemma skipBlanks_space (t : Text) (fuel : Nat) :
    skipBlanks (fuel + 1) (CodePoint.ofChar ' ' :: t) = skipBlanks fuel t := by
  rw [skipBlanks.eq_def]
  dsimp only
  rw [dropJoins_cons (by decide)]
  dsimp only
  rw [if_pos (by decide)]

lemma closed_of_getLast? {t : Text} (hne : t ≠ []) (h : t.getLast? ≠ some (CodePoint.ofChar '\n')) :
    closed t = t ++ Text.ofString "\n" := by
  rw [closed, if_neg]
  rintro (rfl | hlast)
  · exact hne rfl
  · exact h hlast

/-- The context behind a word that a text starts with. -/
def behindFirst (w : Text) : Context := ⟨some (.word w), none, false, []⟩

/-- A bare word in front is a token, and the rest is cut on its own. -/
theorem tokens_bare {w rest : Text} (hw : IsBareWord w) (hrest : SeparatorNext (rest ++ Text.ofString "\n"))
    (hlast : (w ++ rest).getLast? ≠ some (CodePoint.ofChar '\n')) :
    tokens (w ++ rest) = ⟨.word w, rest ++ Text.ofString "\n"⟩ ::
      tokensFrom ((rest ++ Text.ofString "\n").length + 1) (behindFirst w) (rest ++ Text.ofString "\n") := by
  have hclosed : closed (w ++ rest) = w ++ (rest ++ Text.ofString "\n") := by
    rw [closed_of_getLast? (by simp [hw.1]) hlast, List.append_assoc]
  have hend : Ended (rest ++ Text.ofString "\n") :=
    (hclosed ▸ ended_closed (w ++ rest)).suffix (List.suffix_append _ _)
  have hlength := List.length_pos_iff.mpr hw.1
  rw [tokens, hclosed, tokensFrom, hw.isLiteral.token? rfl hrest (hw.isLiteral.skipBlanks _ _)]
  dsimp only
  rw [if_neg (by simp)]
  congr 1
  exact tokensFrom_fuel hend (by simp only [List.length_append]; omega) (Nat.lt_succ_self _)

/-- With one more bare word in front, the rest is cut as before. -/
theorem tokens_bare_bare {front v w rest : Text} (hfront : IsBareWord front) (hv : IsBareWord v)
    (hrest : SeparatorNext (rest ++ Text.ofString "\n"))
    (hlast : (v ++ rest).getLast? ≠ some (CodePoint.ofChar '\n')) :
    tokens (front ++ CodePoint.ofChar ' ' :: (v ++ rest)) =
      ⟨.word front, CodePoint.ofChar ' ' :: (v ++ (rest ++ Text.ofString "\n"))⟩ ::
        ⟨.word v, rest ++ Text.ofString "\n"⟩ ::
        tokensFrom ((rest ++ Text.ofString "\n").length + 1) (behindFirst w) (rest ++ Text.ofString "\n") := by
  have hne : v ++ rest ≠ [] := by simp [hv.1]
  have hend : Ended (rest ++ Text.ofString "\n") :=
    (closed_of_getLast? hne hlast ▸ ended_closed (v ++ rest)).suffix
      ⟨v, (List.append_assoc _ _ _).symm⟩
  have hagrees : Agrees (contextBehind (behindFirst front) (.word v)) (behindFirst w) := by
    refine ⟨.inr ⟨rfl, rfl⟩, by simp [contextBehind, behindFirst], by simp [contextBehind, behindFirst],
      by simp [contextBehind, behindFirst], rfl⟩
  rw [tokens_bare hfront (.inl rfl), List.cons_append, List.append_assoc]
  · congr 1
    rw [tokensFrom, hv.isLiteral.token? rfl hrest]
    · dsimp only
      rw [if_neg (by simp), hagrees.tokensFrom]
      congr 1
      exact tokensFrom_fuel hend (by simp only [List.length_append, List.length_cons]; omega)
        (Nat.lt_succ_self _)
    · rw [List.length_cons, skipBlanks_space, hv.isLiteral.skipBlanks]
  · rwa [List.append_cons, List.getLast?_append_of_ne_nil _ hne]

/-! ### Expansion -/

lemma parts_bare (nested : Expansion.Nested) (quoted : Bool) (fuel : Nat) {w : Text}
    (hw : ∀ c ∈ w, IsBare c) : Expansion.parts nested quoted fuel w = some [] := by
  induction fuel generalizing w with
  | zero => rfl
  | succ fuel ih =>
    cases w with
    | nil => rfl
    | cons c w =>
      obtain ⟨hc, hw⟩ := List.forall_mem_cons.mp hw
      obtain ⟨hslash, -, hdollar, hquote, hmeta, -⟩ := hc.inert
      have hangle : ¬ (c = CodePoint.ofChar '<' ∨ c = CodePoint.ofChar '>') := by
        rintro (rfl | rfl) <;> exact absurd hmeta (by decide)
      have hback : c ≠ CodePoint.ofChar '`' := by
        rintro rfl
        exact absurd hquote (by decide)
      rw [Expansion.parts.eq_def]
      dsimp only
      rw [if_neg fun h => hangle h.1, if_neg hdollar, if_neg hback, if_neg hslash, ih hw]

lemma expandWithin_bare (depth : Nat) {w : Text} (hw : IsBareWord w) :
    Script.expandWithin (depth + 1) w = some [] := by
  obtain ⟨hne, hbare, -⟩ := hw
  cases w with
  | nil => exact absurd rfl hne
  | cons c w =>
    have hc := hbare c List.mem_cons_self
    have hnot : ∀ x : Char, ¬ IsBare x → (c :: w).head? ≠ some (x : CodePoint) := fun x hx h =>
      hx (Option.some.inj h ▸ hc)
    rw [Script.expandWithin, Expansion.ofWord?, if_neg fun h => hnot '\'' (by decide) h.1]
    exact (if_neg (hnot '~' (by decide))).trans (parts_bare _ _ _ hbare)

end CommandWrap.Shell.Lexer

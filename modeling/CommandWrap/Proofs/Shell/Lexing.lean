import Mathlib
import CommandWrap.Proofs.Shell.Rest

/-! What a token takes from the text, and where signs of the grammar come from. -/
namespace CommandWrap.Shell.Lexer

open Enclosure

/-! ### Words -/

/-- A word takes the sign in front, unless that sign ends words. -/
lemma word_step {fuel : Nat} (ih : ∀ t, Leaves (word fuel t) t) {c : CodePoint} {rest t : Text}
    (h : dropJoins t = c :: rest) :
    Leaves (word (fuel + 1) t) rest ∨
      c.isShellBreak = true ∧ (c = '<' ∨ c = '>' → (dropJoins rest).head? ≠ some (CodePoint.ofChar '(')) ∧
        word (fuel + 1) t = some ([], c :: rest) := by
  have parts := partsLeave (t.length + 1)
  have hmore : ∀ s behind : Text, behind <:+ rest → Leaves (prepend s (word fuel behind)) rest :=
    fun s behind hbehind => leaves_prepend ((ih behind).mono hbehind)
  have hdrop := dropJoins_suffix rest
  rw [word.eq_def]
  dsimp only
  rw [h]
  dsimp only
  -- The cases are those of the reader, in its order. The sign stays in front in two of them: an angle
  -- sign that starts no process substitution, and a sign that ends words.
  by_cases hslash : c = CodePoint.ofChar '\\'
  · rw [if_pos hslash]
    refine .inl ?_
    split
    · exact leaves_none _
    · exact hmore _ _ (List.suffix_cons _ _)
  rw [if_neg hslash]
  by_cases hquote : c.isShellQuote = true
  · rw [if_pos hquote]
    exact .inl (leaves_next ih (parts.quote false c rest) List.suffix_rfl)
  rw [if_neg hquote]
  by_cases hsign : c = CodePoint.ofChar '$' ∨ c = CodePoint.ofChar '<' ∨ c = CodePoint.ofChar '>'
  · rw [if_pos hsign]
    split
    · exact .inl (leaves_none _)
    · rename_i d behind hd
      have hbehind : behind <:+ rest := suffix_of_dropJoins hd
      by_cases hpart : d = CodePoint.ofChar '(' ∨ (c = CodePoint.ofChar '$' ∧ opensBehindDollar d = true)
      · rw [if_pos hpart]
        exact .inl (leaves_next ih (parts.dollarPart d behind) hbehind)
      rw [if_neg hpart]
      by_cases hdollar : c ≠ CodePoint.ofChar '$'
      · rw [if_pos hdollar]
        refine .inr ⟨?_, fun _ hparen => hpart (.inl ?_), rfl⟩
        · rcases hsign with rfl | rfl | rfl
          · exact absurd rfl hdollar
          · decide
          · decide
        · simpa [hd] using hparen
      rw [if_neg hdollar]
      exact .inl <| leaves_ite (fun _ => leaves_next ih (escapedSingle_leaves behind) hbehind) fun _ =>
        leaves_ite (fun _ => leaves_next ih (parts.double false behind) hbehind) fun _ =>
        leaves_ite (fun _ => hmore _ _ hbehind) fun _ => hmore _ _ List.suffix_rfl
  rw [if_neg hsign]
  by_cases hbreak : c.isShellBreak = true
  · rw [if_pos hbreak]
    exact .inr ⟨hbreak, fun hangle => absurd (.inr hangle) hsign, rfl⟩
  · rw [if_neg hbreak]
    exact .inl (hmore _ _ List.suffix_rfl)

lemma word_leaves (fuel : Nat) (t : Text) : Leaves (word fuel t) t := by
  induction fuel generalizing t with
  | zero => exact leaves_none _
  | succ fuel ih =>
    cases h : dropJoins t with
    | nil =>
      rw [word.eq_def]
      dsimp only
      rw [h]
      exact leaves_some List.nil_suffix
    | cons c rest =>
      rcases word_step ih h with hword | ⟨-, -, hword⟩
      · exact hword.mono (suffix_of_dropJoins h)
      · rw [hword]
        exact leaves_some (h ▸ dropJoins_suffix t)

/-! ### Texts whose last line ends -/

/-- The last line of the text, if there is one, ends with a line feed. -/
def Ended (t : Text) : Prop := ∀ c ∈ t.getLast?, c = CodePoint.ofChar '\n'

lemma ended_closed (t : Text) : Ended (closed t) := by
  intro c hc
  rw [closed] at hc
  split_ifs at hc with h
  · rcases h with rfl | h
    · simp at hc
    · exact (Option.some.inj (h.symm.trans hc)).symm
  · simpa [Text.ofString] using hc.symm

lemma Ended.suffix {s t : Text} (ht : Ended t) (h : s <:+ t) : Ended s := by
  obtain ⟨front, rfl⟩ := h
  intro c hc
  refine ht c ?_
  rw [List.getLast?_append, Option.mem_def.mp hc]
  rfl

lemma Ended.ne_nil {c : CodePoint} {rest : Text} (h : Ended (c :: rest)) (hc : c ≠ CodePoint.ofChar '\n') :
    rest ≠ [] := by
  rintro rfl
  exact hc (h c rfl)

lemma resume_suffix {t : Text} (h : Ended t) (hne : t ≠ []) : resume t <:+ t := by
  rw [resume]
  split_ifs
  · obtain ⟨front, c, rfl⟩ := List.eq_nil_or_concat t |>.resolve_left hne
    obtain rfl := h c (by simp)
    exact ⟨front, by simp [Text.ofString]⟩
  · exact dropJoins_suffix t

/-! ### Operators and here-documents -/

/-- The sign that a token of a list or a pipeline starts with. -/
def sign? : Token → Option CodePoint
  | .pipe | .orIf => some '|'
  | .semicolon | .clauseEnd => some ';'
  | _ => none

/-- An operator leaves the end of the text behind its first sign `c`. Only a process substitution
starts with such a sign and is none. -/
structure OperatorOf (c : CodePoint) (rest : Text) (e : Option Placed) : Prop where
  behind : ∀ placed ∈ e, placed.behind <:+ rest
  line : ∀ placed ∈ e, ∀ documents, placed.token ≠ .newline documents
  sign : ∀ placed ∈ e, ∀ d ∈ sign? placed.token, d = c
  opens : e = none → (c = '<' ∨ c = '>') ∧ (dropJoins rest).head? = some (CodePoint.ofChar '(')

section OperatorOf

variable {c : CodePoint} {rest : Text}

lemma operatorOf_some {token : Token} {behind : Text} (hbehind : behind <:+ rest)
    (hsign : ∀ d ∈ sign? token, d = c) (hline : ∀ documents, token ≠ .newline documents := by simp) :
    OperatorOf c rest (some ⟨token, behind⟩) := by
  refine ⟨fun placed h => ?_, fun placed h => ?_, fun placed h => ?_, by simp⟩ <;>
    obtain rfl := Option.some.inj h
  · exact hbehind
  · exact hline
  · exact hsign

lemma operatorOf_plain {token : Token} {behind : Text} (hbehind : behind <:+ rest)
    (hsign : sign? token = none) (hline : ∀ documents, token ≠ .newline documents := by simp) :
    OperatorOf c rest (some ⟨token, behind⟩) :=
  operatorOf_some hbehind (fun d hd => by simp [hsign] at hd) hline

lemma operatorOf_ite {p : Prop} [Decidable p] {a b : Option Placed} (ha : p → OperatorOf c rest a)
    (hb : ¬ p → OperatorOf c rest b) : OperatorOf c rest (if p then a else b) := by
  by_cases h : p
  · rw [if_pos h]
    exact ha h
  · rw [if_neg h]
    exact hb h

lemma resume_behind_suffix (h : Ended rest) {d : CodePoint} (hd : (dropJoins rest).head? = some d)
    (hne : d ≠ CodePoint.ofChar '\n') : resume ((dropJoins rest).drop 1) <:+ rest := by
  cases hjoin : dropJoins rest with
  | nil => simp [hjoin] at hd
  | cons e behind =>
    obtain rfl : e = d := by simpa [hjoin] using hd
    have hend : Ended (e :: behind) := hjoin ▸ h.suffix (dropJoins_suffix rest)
    exact (resume_suffix (hend.suffix (List.suffix_cons e behind)) (hend.ne_nil hne)).trans
      (suffix_of_dropJoins hjoin)

lemma operatorOf_operator? (context : Context) (hend : Ended (c :: rest))
    (hc : c ≠ CodePoint.ofChar '\n') : OperatorOf c rest (operator? context c rest) := by
  have hrest : Ended rest := hend.suffix (List.suffix_cons c rest)
  have hbehind : (dropJoins rest).drop 1 <:+ rest := drop_dropJoins_suffix 1 rest
  have hlater : (dropJoins ((dropJoins rest).drop 1)).drop 1 <:+ rest :=
    (drop_dropJoins_suffix 1 _).trans hbehind
  have hresume := resume_suffix hrest (hend.ne_nil hc)
  have hresumeBehind : ∀ d, (dropJoins rest).head? = some d → d ≠ CodePoint.ofChar '\n' →
      resume ((dropJoins rest).drop 1) <:+ rest := fun d hd hne => resume_behind_suffix hrest hd hne
  have hsame : ∀ {x : Char} {token : Token}, c = x → sign? token = some (CodePoint.ofChar x) →
      ∀ d ∈ sign? token, d = c := by
    intro x token hcx hsign d hd
    rw [hsign] at hd
    exact (Option.some.inj hd).symm.trans hcx.symm
  unfold operator?
  dsimp only
  -- One step for each operator, in the order in which they are tried. What is left lies one sign further,
  -- two signs further, or where reading resumes.
  refine operatorOf_ite (fun h => ?_) fun _ => ?_
  · exact operatorOf_ite (fun _ => operatorOf_plain hlater rfl) fun _ =>
      operatorOf_ite (fun _ => operatorOf_plain hlater rfl) fun _ =>
      operatorOf_plain (hresumeBehind _ h.2 (by decide)) rfl
  refine operatorOf_ite (fun _ => operatorOf_plain hbehind rfl) fun _ => ?_
  refine operatorOf_ite (fun h => operatorOf_some ?_ (hsame h.1 rfl)) fun _ => ?_
  · split_ifs
    · exact hlater
    · exact hresumeBehind _ h.2 (by decide)
  refine operatorOf_ite (fun _ => operatorOf_plain hbehind rfl) fun _ => ?_
  refine operatorOf_ite (fun h => operatorOf_some hbehind (hsame h.1 rfl)) fun _ => ?_
  refine operatorOf_ite (fun _ => operatorOf_plain hbehind rfl) fun _ => ?_
  refine operatorOf_ite (fun _ => operatorOf_plain hbehind rfl) fun _ => ?_
  refine operatorOf_ite (fun _ => operatorOf_plain hbehind rfl) fun _ => ?_
  refine operatorOf_ite (fun _ => operatorOf_plain hbehind rfl) fun _ => ?_
  refine operatorOf_ite (fun h => ?_) fun _ => ?_
  · exact operatorOf_ite (fun _ => operatorOf_plain hlater rfl) fun _ =>
      operatorOf_plain (hresumeBehind _ h.2 (by decide)) rfl
  refine operatorOf_ite (fun h => operatorOf_some hbehind (hsame h.1 rfl)) fun _ => ?_
  refine operatorOf_ite (fun h => operatorOf_some hbehind (hsame h.1 rfl)) fun _ => ?_
  refine operatorOf_ite (fun h => ⟨by simp, by simp, by simp, fun _ => h⟩) fun _ => ?_
  refine operatorOf_ite (fun _ => operatorOf_plain hresume rfl) fun _ => ?_
  refine operatorOf_ite (fun _ => operatorOf_plain hresume rfl) fun _ => ?_
  refine operatorOf_ite (fun h => operatorOf_some hresume (hsame h rfl)) fun _ => ?_
  refine operatorOf_ite (fun _ => operatorOf_plain hresume rfl) fun _ => ?_
  refine operatorOf_ite (fun h => operatorOf_some hresume (hsame h rfl)) fun _ => ?_
  exact operatorOf_ite (fun _ => operatorOf_plain hresume rfl) fun _ => operatorOf_plain hresume rfl

end OperatorOf

lemma joinedLine_suffix (t : Text) : (joinedLine t).2 <:+ t := by
  fun_induction joinedLine t with
  | case1 => exact List.suffix_rfl
  | case2 => exact List.nil_suffix
  | case3 => exact List.nil_suffix
  | case4 c d rest _ ih => exact ih.trans ((List.suffix_cons _ _).trans (List.suffix_cons _ _))
  | case5 c d rest => exact List.suffix_cons _ _
  | case6 c d rest _ _ ih => exact ih.trans (List.suffix_cons _ _)

lemma behindDocument_suffix {fuel : Nat} {delimiter : Text} {stripTabs : Bool} {t behind : Text}
    (h : behindDocument fuel delimiter stripTabs t = some behind) : behind <:+ t := by
  induction fuel generalizing t with
  | zero => simp [behindDocument] at h
  | succ fuel ih =>
    rw [behindDocument] at h
    split at h
    · simp at h
    · dsimp only at h
      generalize (if stripTabs = true then _ else _) = line at h
      split_ifs at h
      · obtain rfl := Option.some.inj h
        exact joinedLine_suffix t
      · exact (ih h).trans (joinedLine_suffix t)

lemma behindDocuments_suffix {awaited : List (Text × Bool)} {t behind : Text}
    (h : behindDocuments awaited t = some behind) : behind <:+ t := by
  induction awaited generalizing t with
  | nil =>
    obtain rfl := Option.some.inj h
    exact List.suffix_rfl
  | cons document awaited ih =>
    rw [behindDocuments, List.foldlM_cons] at h
    obtain ⟨middle, hmiddle, h⟩ := Option.bind_eq_some_iff.mp h
    exact (ih h).trans (behindDocument_suffix hmiddle)

lemma skipBlanks_suffix (fuel : Nat) (t : Text) : skipBlanks fuel t <:+ t := by
  induction fuel generalizing t with
  | zero => exact List.suffix_rfl
  | succ fuel ih =>
    rw [skipBlanks.eq_def]
    dsimp only
    split
    · exact List.nil_suffix
    · rename_i c rest h
      split_ifs
      · exact (ih rest).trans (suffix_of_dropJoins h)
      · exact h ▸ dropJoins_suffix t

/-! ### Tokens -/

lemma newline_suffix (context : Context) (behind : Text) : (newline context behind).behind <:+ behind := by
  rw [newline]
  split
  · rename_i rest h
    exact behindDocuments_suffix h
  · exact List.nil_suffix

lemma sign?_newline (context : Context) (behind : Text) :
    sign? (newline context behind).token = none := by
  rw [newline]
  split <;> rfl

/-- A line feed brings documents with it if some are awaited. -/
lemma newline_token {context : Context} {behind : Text} {documents : Bool}
    (h : (newline context behind).token = .newline documents) :
    documents = decide (context.awaited ≠ []) := by
  rw [newline] at h
  split at h
  · exact (Token.newline.inj h).symm
  · cases h

lemma classify_spec (context : Context) (t behind : Text) :
    sign? (classify context t behind) = none ∧
      ∀ documents, classify context t behind ≠ .newline documents := by
  rw [classify]
  split
  · exact ⟨rfl, by simp⟩
  · split
    · exact ⟨rfl, by simp⟩
    · split <;> exact ⟨rfl, by simp⟩

lemma dropJoins_dropJoins (t : Text) : dropJoins (dropJoins t) = dropJoins t := by
  fun_induction dropJoins t with
  | case1 c d rest _ ih => exact ih
  | case2 c d rest hjoin => rw [dropJoins, if_neg hjoin]
  | case3 t h =>
    rw [dropJoins.eq_def]
    split
    · exact absurd rfl (h _ _ _)
    · rfl

/-- Neither a blank nor a joined line end is left in front. -/
lemma skipBlanks_eq_cons {fuel : Nat} {c : CodePoint} {rest t : Text} (hfuel : t.length < fuel)
    (h : skipBlanks fuel t = c :: rest) :
    dropJoins (c :: rest) = c :: rest ∧ c.isShellBlank = false := by
  induction fuel generalizing t with
  | zero => omega
  | succ fuel ih =>
    rw [skipBlanks.eq_def] at h
    dsimp only at h
    split at h
    · simp at h
    · rename_i d behind hjoin
      have hlength := (dropJoins_suffix t).length_le
      rw [hjoin, List.length_cons] at hlength
      split_ifs at h with hblank
      · exact ih (by omega) h
      · obtain ⟨rfl, rfl⟩ := List.cons.inj h
        exact ⟨by rw [← hjoin, dropJoins_dropJoins], by simpa using hblank⟩

/-- The token that is left where no operator and no line end stands in front. -/
def asWord (context : Context) (fuel : Nat) (t : Text) : Option Placed :=
  match word fuel t with
  | some (read, behind) => some ⟨classify context read behind, behind⟩
  | none => some unreadable

lemma asWord_spec {context : Context} {fuel : Nat} {c : CodePoint} {rest : Text} {placed : Placed}
    (hjoin : dropJoins (c :: rest) = c :: rest)
    (hc : c.isShellBreak = true →
      (c = '<' ∨ c = '>') ∧ (dropJoins rest).head? = some (CodePoint.ofChar '('))
    (h : asWord context fuel (c :: rest) = some placed) :
    placed.behind <:+ rest ∧ sign? placed.token = none ∧
      ∀ documents, placed.token ≠ .newline documents := by
  rw [asWord] at h
  split at h
  · rename_i read behind hword
    obtain rfl := Option.some.inj h
    refine ⟨?_, classify_spec context read behind⟩
    cases fuel with
    | zero => simp [word] at hword
    | succ fuel =>
      rcases word_step (word_leaves fuel) hjoin with hleaves | ⟨hbreak, hparen, -⟩
      · exact hleaves _ _ hword
      · exact absurd (hc hbreak).2 (hparen (hc hbreak).1)
  · obtain rfl := Option.some.inj h
    exact ⟨List.nil_suffix, rfl, by simp [unreadable]⟩

lemma isShellMeta_of_isShellBreak {c : CodePoint} (hblank : c.isShellBlank = false)
    (hline : c ≠ CodePoint.ofChar '\n') (h : c.isShellBreak = true) : c.isShellMeta = true := by
  simpa [CodePoint.isShellBreak, hblank, hline] using h

/-- A token takes at least one sign of a text. -/
structure TakenFrom (context : Context) (t : Text) (placed : Placed) : Prop where
  behind : placed.behind <:+ t
  shorter : placed.behind.length < t.length
  sign : ∀ d ∈ sign? placed.token, d ∈ t
  line : ∀ documents, placed.token = .newline documents → documents = decide (context.awaited ≠ [])

theorem takenFrom_token? {context : Context} {t : Text} {placed : Placed} (hend : Ended t)
    (h : token? context t = some placed) : TakenFrom context t placed := by
  rw [token?] at h
  split at h
  · simp at h
  · rename_i c rest hskip
    obtain ⟨hjoin, hblank⟩ := skipBlanks_eq_cons (Nat.lt_succ_self _) hskip
    have hsuffix : c :: rest <:+ t := hskip ▸ skipBlanks_suffix _ t
    -- Whatever the token is, it is enough that the rest lies behind the first sign.
    have htaken : placed.behind <:+ rest → (∀ d ∈ sign? placed.token, d = c) →
        (∀ documents, placed.token = .newline documents → documents = decide (context.awaited ≠ [])) →
        TakenFrom context t placed := by
      intro hbehind hsign hnewline
      refine ⟨hbehind.trans ((List.suffix_cons c rest).trans hsuffix), ?_, fun d hd => ?_, hnewline⟩
      · have := hsuffix.length_le
        have := hbehind.length_le
        simp only [List.length_cons] at *
        omega
      · exact hsuffix.subset (hsign d hd ▸ List.mem_cons_self)
    have hnone : sign? placed.token = none → ∀ d ∈ sign? placed.token, d = c := by
      intro hsign d hd
      simp [hsign] at hd
    have hword : ∀ fuel, asWord context fuel (c :: rest) = some placed →
        (c.isShellBreak = true →
          (c = '<' ∨ c = '>') ∧ (dropJoins rest).head? = some (CodePoint.ofChar '(')) →
        TakenFrom context t placed := by
      intro fuel hplaced hbreak
      obtain ⟨hbehind, hsign, hnewline⟩ := asWord_spec hjoin hbreak hplaced
      exact htaken hbehind (hnone hsign) fun documents hline => absurd hline (hnewline documents)
    change (if c = CodePoint.ofChar '#' then _ else if c = CodePoint.ofChar '\n' then _
      else if c.isShellMeta = true then (operator? context c rest).or (asWord context _ _)
      else if _ then _ else asWord context _ _) = _ at h
    by_cases hcomment : c = CodePoint.ofChar '#'
    · rw [if_pos hcomment] at h
      obtain rfl := Option.some.inj h
      exact htaken ((newline_suffix _ _).trans ((List.drop_suffix _ _).trans (List.dropWhile_suffix _)))
        (hnone (sign?_newline _ _)) fun _ => newline_token
    rw [if_neg hcomment] at h
    by_cases hline : c = CodePoint.ofChar '\n'
    · rw [if_pos hline] at h
      obtain rfl := Option.some.inj h
      exact htaken (newline_suffix _ _) (hnone (sign?_newline _ _)) fun _ => newline_token
    rw [if_neg hline] at h
    by_cases hmeta : c.isShellMeta = true
    · rw [if_pos hmeta] at h
      have hoperator := operatorOf_operator? context (hend.suffix hsuffix) hline
      rcases Option.or_eq_some_iff.mp h with hsome | ⟨hno, hplaced⟩
      · exact htaken (hoperator.behind _ hsome) (hoperator.sign _ hsome)
          fun documents hnewline => absurd hnewline (hoperator.line _ hsome documents)
      · exact hword _ hplaced fun _ => hoperator.opens hno
    rw [if_neg hmeta] at h
    split_ifs at h
    · obtain rfl := Option.some.inj h
      exact htaken List.suffix_rfl (hnone rfl) (by simp)
    · exact hword _ h fun hbreak => absurd (isShellMeta_of_isShellBreak hblank hline hbreak) hmeta

/-- A list or a pipeline is made of signs of the text. -/
theorem sign_mem_of_mem_tokensFrom {fuel : Nat} {context : Context} {t : Text} (hend : Ended t)
    {placed : Placed} (h : placed ∈ tokensFrom fuel context t) : ∀ d ∈ sign? placed.token, d ∈ t := by
  induction fuel generalizing context t with
  | zero => simp [tokensFrom] at h
  | succ fuel ih =>
    rw [tokensFrom] at h
    split at h
    · simp at h
    · rename_i first hfirst
      have htaken := takenFrom_token? hend hfirst
      split_ifs at h
      · obtain rfl := List.mem_singleton.mp h
        exact htaken.sign
      · rcases List.mem_cons.mp h with rfl | h
        · exact htaken.sign
        · exact fun d hd => htaken.behind.subset (ih (hend.suffix htaken.behind) h d hd)

/-- Fuel does not matter once there is more of it than text. -/
theorem tokensFrom_fuel {m n : Nat} {context : Context} {t : Text} (hend : Ended t) (hm : t.length < m)
    (hn : t.length < n) : tokensFrom m context t = tokensFrom n context t := by
  induction m generalizing n context t with
  | zero => omega
  | succ m ih =>
    cases n with
    | zero => omega
    | succ n =>
      rw [tokensFrom, tokensFrom]
      cases hfirst : token? context t with
      | none => rfl
      | some first =>
        have htaken := takenFrom_token? hend hfirst
        have hshorter := htaken.shorter
        dsimp only
        rw [ih (n := n) (hend.suffix htaken.behind) (by omega) (by omega)]

lemma awaited_contextBehind {context : Context} (hawaited : context.awaited = [])
    (hlast : ∀ stripTabs, context.last ≠ some (.redirection (.hereDocument stripTabs))) (token : Token) :
    (contextBehind context token).awaited = [] := by
  unfold contextBehind
  dsimp only
  split
  · rfl
  · rename_i stripTabs hsome
    exact absurd hsome (hlast stripTabs)
  · exact hawaited

/-- Where no here-document was started, the line feed brings none with it. -/
theorem newline_without_documents {fuel : Nat} {context : Context} {t : Text} {read after : List Placed}
    {placed : Placed} {documents : Bool} (hend : Ended t)
    (h : tokensFrom fuel context t = read ++ placed :: after) (hawaited : context.awaited = [])
    (hlast : ∀ stripTabs, context.last ≠ some (.redirection (.hereDocument stripTabs)))
    (hread : ∀ first ∈ read, ∀ stripTabs, first.token ≠ .redirection (.hereDocument stripTabs))
    (hline : placed.token = .newline documents) : documents = false := by
  induction fuel generalizing context t read with
  | zero => simp [tokensFrom] at h
  | succ fuel ih =>
    rw [tokensFrom] at h
    split at h
    · simp at h
    · rename_i first hfirst
      have htaken := takenFrom_token? hend hfirst
      cases read with
      | nil =>
        obtain rfl : first = placed := by
          split_ifs at h <;> exact (List.cons.inj h).1
        simpa [hawaited] using htaken.line documents hline
      | cons second read =>
        split_ifs at h
        · simp at h
        · obtain ⟨rfl, hrest⟩ := List.cons.inj h
          refine ih (hend.suffix htaken.behind) hrest ?_ ?_ fun other hother =>
            hread other (List.mem_cons_of_mem _ hother)
          · exact awaited_contextBehind hawaited hlast _
          · exact fun stripTabs hsome => hread first List.mem_cons_self stripTabs (Option.some.inj hsome)

end CommandWrap.Shell.Lexer

import Mathlib
import CommandWrap.Proofs.Shell.SimpleCommand
import CommandWrap.Shell.Shape

/-! A text whose first token is a word: when its first line is a simple command, and when it is more. -/
namespace CommandWrap.Shell

/-- The tokens up to the first line feed. -/
def firstLine (ts : List Placed) : List Placed := ts.takeWhile fun placed => !Grammar.isNewline placed.token

/-- What makes more than a simple command of the line that a word starts. -/
def Token.Joins : Token → Prop
  | .openParen | .pipe | .andIf | .orIf | .semicolon | .background => True
  | _ => False

namespace Grammar

variable {expand : Expand} {ts after : List Placed} {t last behind : Text} {trees : List Tree}
variable {fuel : Nat} {e : Phrase}

lemma not_isNewline_of_isPart {token : Token} (h : token.IsPart) : isNewline token = false := by
  cases token with
  | newline _ => exact h.elim
  | _ => rfl

lemma firstLine_append {parts : List Placed} (hparts : ∀ placed ∈ parts, placed.token.IsPart) :
    firstLine (parts ++ after) = parts ++ firstLine after :=
  List.takeWhile_append_of_pos fun placed h => by simp [not_isNewline_of_isPart (hparts placed h)]

/-- Behind the elements of the first line, that line goes on. -/
lemma Elements.mem_firstLine (h : Elements expand last ts trees behind after) {placed : Placed}
    (hplaced : placed ∈ firstLine after) : placed ∈ firstLine ts := by
  obtain ⟨parts, rfl, -, hpart, -⟩ := h.spec
  rw [firstLine_append hpart]
  exact List.mem_append_right parts hplaced

lemma mem_firstLine_head {placed : Placed} (hhead : ts.head? = some placed)
    (hline : isNewline placed.token = false) : placed ∈ firstLine ts := by
  cases ts with
  | nil => simp at hhead
  | cons first rest =>
    obtain rfl := Option.some.inj hhead
    rw [firstLine, List.takeWhile_cons_of_pos (by simp [hline])]
    exact List.mem_cons_self

/-! ### One command -/

lemma simpleCommand_word (expand : Expand) (fuel : Nat) (t behind : Text) (ts : List Placed) :
    simpleCommand expand fuel (⟨.word t, behind⟩ :: ts) =
      (expand t).bind fun parts => elements expand fuel [.of "word" parts] behind ts := by
  rw [simpleCommand]
  change (Option.map _ (expand t)).bind _ = _
  cases expand t <;> rfl

lemma command_word (expand : Expand) (fuel : Nat) (t behind : Text) (ts : List Placed) :
    command expand (fuel + 1) (⟨.word t, behind⟩ :: ts) =
      if ts.head?.map (·.token) = some .openParen then
        definition expand fuel true (⟨.word t, behind⟩ :: ts)
      else simpleCommand expand (ts.length + 1) (⟨.word t, behind⟩ :: ts) := by
  rw [command.eq_def]
  cases ts with
  | nil => rfl
  | cons next rest =>
    obtain ⟨token, behindNext⟩ := next
    cases token <;> rfl

/-- Whatever the reader reads is of the kind. -/
def Yields (kind : Text) (x : Reader Phrase) : Prop :=
  ∀ ts e after, x ts = some (e, after) → e.tree.kind? = some kind

section Yields

variable {kind : Text} {α : Type}

lemma yields_bind {x : Reader α} {f : α → Reader Phrase} (h : ∀ a, Yields kind (f a)) :
    Yields kind (x >>= f) := by
  intro ts e after hbind
  obtain ⟨a, rest, -, hf⟩ := Reader.bind_eq_some.mp hbind
  exact h a rest e after hf

lemma yields_of (kind behind : Text) (parts : List Tree) :
    Yields kind (pure (⟨.of kind parts, behind⟩ : Phrase)) := by
  intro ts e after h
  obtain ⟨rfl, -⟩ := Reader.pure_eq_some h
  rfl

lemma yields_fail (kind : Text) : Yields kind fail := by
  intro ts e after h
  simp [fail] at h

lemma yields_definition (expand : Expand) (fuel : Nat) (required : Bool) :
    Yields "function" (definition expand fuel required) := by
  cases fuel with
  | zero => exact yields_fail _
  | succ fuel =>
    have hbody : Yields "function" (newlines >>= fun _ => redirected expand fuel >>= fun behind =>
        pure (⟨.of "function" [], behind⟩ : Phrase)) :=
      yields_bind fun _ => yields_bind fun _ => yields_of _ _ _
    rw [definition]
    refine yields_bind fun _ => yields_bind fun _ => ?_
    split_ifs
    · exact yields_bind fun _ => yields_bind fun _ => hbody
    · exact hbody

lemma yields_behindLogical {more : Token → Reader Phrase} (h : ∀ joined, Yields kind (more joined))
    (operator : Token) : Yields kind (token operator >>= fun _ => newlines >>= fun _ => more operator) :=
  yields_bind fun _ => yields_bind fun _ => h operator

lemma yields_behindSeparator {more : Token → Reader Phrase} (h : ∀ joined, Yields "list" (more joined))
    (operator : Token) : Yields "list" (token operator >>= fun behind => peek >>= fun next =>
      if next.any startsCommand then more operator
      else take isNewline >>= fun _ => pure (⟨.of "list" [], behind⟩ : Phrase)) := by
  refine yields_bind fun behind => yields_bind fun next => ?_
  split_ifs
  · exact h operator
  · exact yields_bind fun _ => yields_of _ _ _

/-- Behind an operator there is a list, whatever it holds. -/
lemma yields_commands (expand : Expand) (closing : Script.Closing) (fuel : Nat) (joined : Token) :
    Yields "list" (Script.commands expand closing fuel (some joined)) := by
  induction fuel generalizing joined with
  | zero => exact yields_fail _
  | succ fuel ih =>
    rw [Script.commands]
    refine yields_bind fun e => yields_bind fun next => ?_
    rw [if_neg (c := some joined = none) (by simp)]
    split
    · exact yields_behindLogical ih .andIf
    · exact yields_behindLogical ih .orIf
    · exact yields_behindSeparator ih .semicolon
    · exact yields_behindSeparator ih .background
    · split
      · exact yields_of _ _ _
      · exact yields_fail _
    · exact yields_bind fun _ => yields_of _ _ _

end Yields

/-- The word `t` and the elements behind it are a simple command. -/
def ReadsSimple (expand : Expand) (t last : Text) (ts : List Placed) (e : Phrase) (after : List Placed) :
    Prop :=
  ∃ parts trees, expand t = some parts ∧ Elements expand last ts trees e.behind after ∧
    e.tree = .of "command" (.of "word" parts :: trees)

/-- Something of the first line makes more than a simple command. -/
def ReadsJoined (ts : List Placed) (e : Phrase) : Prop :=
  e.tree.kind? ≠ some (Text.ofString "command") ∧ ∃ placed ∈ firstLine ts, placed.token.Joins

lemma ne_command_of_eq {tree : Tree} {kind : Text} (h : tree.kind? = some kind)
    (hkind : kind ≠ Text.ofString "command") : tree.kind? ≠ some (Text.ofString "command") := by
  rw [h]
  exact fun hsome => hkind (Option.some.inj hsome)

lemma joins_of_head? {token : Token} (h : ts.head?.map (·.token) = some token) (hjoins : token.Joins) :
    ∃ placed ∈ firstLine ts, placed.token.Joins := by
  obtain ⟨placed, hhead, rfl⟩ := Option.map_eq_some_iff.mp h
  refine ⟨placed, mem_firstLine_head hhead ?_, hjoins⟩
  cases hplaced : placed.token <;> simp [hplaced, Token.Joins] at hjoins <;> rfl

lemma command_cases (h : command expand (fuel + 1) (⟨.word t, last⟩ :: ts) = some (e, after)) :
    ReadsSimple expand t last ts e after ∨ ReadsJoined ts e := by
  rw [command_word] at h
  split_ifs at h with hparen
  · exact .inr ⟨ne_command_of_eq (yields_definition _ _ _ _ _ _ h) (by decide),
      joins_of_head? hparen trivial⟩
  · rw [simpleCommand_word] at h
    obtain ⟨parts, hparts, h⟩ := Option.bind_eq_some_iff.mp h
    obtain ⟨trees, htree, helements⟩ := elements_of_eq_some h
    exact .inl ⟨parts, trees, hparts, helements, htree⟩

lemma joins_behind (h : ReadsSimple expand t last ts e after ∨ ReadsJoined ts e) {token : Token}
    (htoken : after.head?.map (·.token) = some token) (hjoins : token.Joins) :
    ∃ placed ∈ firstLine ts, placed.token.Joins := by
  rcases h with ⟨_, _, _, helements, _⟩ | ⟨-, hline⟩
  · obtain ⟨placed, hplaced, hplacedJoins⟩ := joins_of_head? htoken hjoins
    exact ⟨placed, helements.mem_firstLine hplaced, hplacedJoins⟩
  · exact hline

lemma pipeline_pos {count : Nat} {last : Phrase}
    (h : pipeline expand fuel ts = some ((count, last), after)) : 0 < count := by
  cases fuel with
  | zero => simp [pipeline, fail] at h
  | succ fuel =>
    rw [pipeline] at h
    obtain ⟨first, rest, -, h⟩ := Reader.bind_eq_some.mp h
    rw [Reader.peek_bind] at h
    split_ifs at h
    · obtain ⟨-, rest, -, h⟩ := Reader.bind_eq_some.mp h
      obtain ⟨-, rest, -, h⟩ := Reader.bind_eq_some.mp h
      obtain ⟨⟨count', last'⟩, rest, -, h⟩ := Reader.bind_eq_some.mp h
      obtain ⟨hpair, -⟩ := Reader.pure_eq_some h
      have := (Prod.mk.inj hpair).1
      omega
    · obtain ⟨hpair, -⟩ := Reader.pure_eq_some h
      have := (Prod.mk.inj hpair).1
      omega

lemma negated_cases (h : negated expand (fuel + 3) (⟨.word t, last⟩ :: ts) = some (e, after)) :
    ReadsSimple expand t last ts e after ∨ ReadsJoined ts e := by
  rw [negated, Reader.peek_bind, if_neg (by simp)] at h
  obtain ⟨⟨count, piped⟩, rest, hpipeline, h⟩ := Reader.bind_eq_some.mp h
  obtain ⟨rfl, rfl⟩ := Reader.pure_eq_some h
  rw [pipeline] at hpipeline
  obtain ⟨first, behindFirst, hfirst, hpipeline⟩ := Reader.bind_eq_some.mp hpipeline
  have hcases := command_cases hfirst
  rw [Reader.peek_bind] at hpipeline
  split_ifs at hpipeline with hpipe
  · obtain ⟨-, rest₁, -, hpipeline⟩ := Reader.bind_eq_some.mp hpipeline
    obtain ⟨-, rest₂, -, hpipeline⟩ := Reader.bind_eq_some.mp hpipeline
    obtain ⟨⟨count', last'⟩, rest₃, hmore, hpipeline⟩ := Reader.bind_eq_some.mp hpipeline
    obtain ⟨hpair, rfl⟩ := Reader.pure_eq_some hpipeline
    obtain ⟨rfl, rfl⟩ := Prod.mk.inj hpair
    have hpos := pipeline_pos hmore
    rw [if_neg (by omega)]
    exact .inr ⟨ne_command_of_eq rfl (by decide), joins_behind hcases hpipe trivial⟩
  · obtain ⟨hpair, rfl⟩ := Reader.pure_eq_some hpipeline
    obtain ⟨rfl, rfl⟩ := Prod.mk.inj hpair
    rw [if_pos rfl]
    exact hcases

lemma take_eq_some {class? : Token → Bool} (h : take class? ts = some (behind, after)) :
    ∃ placed, ts = placed :: after ∧ class? placed.token = true := by
  cases ts with
  | nil => simp [take] at h
  | cons placed rest =>
    rw [take] at h
    split_ifs at h with hclass
    obtain ⟨-, rfl⟩ := Prod.mk.inj (Option.some.inj h)
    exact ⟨placed, rfl, hclass⟩

/-- The first commands of a script that starts with a word: one simple command up to the line feed, or
a line that something joins. -/
theorem commands_cases (hfuel : 3 ≤ fuel)
    (h : Script.commands expand .line fuel none (⟨.word t, last⟩ :: ts) = some (e, after)) :
    (∃ placed, ReadsSimple expand t last ts e (placed :: after) ∧ isNewline placed.token = true) ∨
      ReadsJoined ts e := by
  obtain ⟨fuel, rfl⟩ := Nat.exists_eq_add_of_le' hfuel
  rw [Script.commands] at h
  obtain ⟨first, rest, hfirst, h⟩ := Reader.bind_eq_some.mp h
  have hcases := negated_cases hfirst
  rw [Reader.peek_bind, if_pos rfl] at h
  have hjoined : ∀ {token : Token}, rest.head?.map (·.token) = some token → token.Joins →
      e.tree.kind? = some (Text.ofString "list") → ReadsJoined ts e := fun htoken hjoins hkind =>
    ⟨ne_command_of_eq hkind (by decide), joins_behind hcases htoken hjoins⟩
  have hmore := yields_commands expand .line (fuel + 2)
  generalize htoken : rest.head?.map (·.token) = next at h
  split at h
  · exact .inr (hjoined htoken trivial (yields_behindLogical hmore .andIf _ _ _ h))
  · exact .inr (hjoined htoken trivial (yields_behindLogical hmore .orIf _ _ _ h))
  · exact .inr (hjoined htoken trivial (yields_behindSeparator hmore .semicolon _ _ _ h))
  · exact .inr (hjoined htoken trivial (yields_behindSeparator hmore .background _ _ _ h))
  · simp [fail] at h
  · obtain ⟨behind, rest', htake, h⟩ := Reader.bind_eq_some.mp h
    obtain ⟨rfl, rfl⟩ := Reader.pure_eq_some h
    obtain ⟨placed, rfl, hline⟩ := take_eq_some htake
    rcases hcases with hsimple | hjoins
    · exact .inl ⟨placed, hsimple, hline⟩
    · exact .inr hjoins

/-- A simple command up to the line feed is read as one. -/
theorem commands_of_readsSimple {placed : Placed} (h : ReadsSimple expand t last ts e (placed :: after))
    (hline : isNewline placed.token = true) (hfuel : 3 ≤ fuel) :
    Script.commands expand .line fuel none (⟨.word t, last⟩ :: ts) = some (e, after) := by
  obtain ⟨fuel, rfl⟩ := Nat.exists_eq_add_of_le' hfuel
  obtain ⟨parts, trees, hparts, helements, htree⟩ := h
  have hnext : ∀ {token : Token}, isNewline token = false → placed.token ≠ token := by
    rintro token htoken rfl
    simp [htoken] at hline
  have hparen : ts.head?.map (·.token) ≠ some .openParen := by
    obtain ⟨read, rfl, -, hpart, -⟩ := helements.spec
    cases read with
    | nil => simpa using hnext rfl
    | cons first read =>
      intro hfirst
      obtain hopen : first.token = .openParen := by simpa using hfirst
      exact (hopen ▸ hpart first List.mem_cons_self : Token.IsPart .openParen)
  have hpipe : (placed :: after).head?.map (·.token) ≠ some .pipe := by simpa using hnext rfl
  have hcommand : command expand (fuel + 1) (⟨.word t, last⟩ :: ts) = some (e, placed :: after) := by
    rw [command_word, if_neg hparen, simpleCommand_word, hparts]
    dsimp only [Option.bind]
    rw [helements.eq_some (Nat.lt_succ_self _), List.singleton_append, ← htree]
  have hnegated : negated expand (fuel + 3) (⟨.word t, last⟩ :: ts) = some (e, placed :: after) := by
    rw [negated, Reader.peek_bind, if_neg (by simp)]
    have hpipeline : pipeline expand (fuel + 2) (⟨.word t, last⟩ :: ts) =
        some ((1, e), placed :: after) := by
      rw [pipeline, Reader.bind_of_eq hcommand, Reader.peek_bind, if_neg hpipe]
      rfl
    rw [Reader.bind_of_eq hpipeline]
    rfl
  rw [Script.commands, Reader.bind_of_eq hnegated, Reader.peek_bind]
  cases htoken : placed.token with
  | newline documents =>
    simp only [List.head?_cons, Option.map_some, htoken]
    have htake : take isNewline (placed :: after) = some (placed.behind, after) := by
      rw [take, hline, if_pos rfl]
    rw [Reader.bind_of_eq htake]
    rfl
  | _ => simp [htoken, isNewline] at hline

end Grammar
end CommandWrap.Shell

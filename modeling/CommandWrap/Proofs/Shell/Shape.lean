import Mathlib
import CommandWrap.Proofs.Shell.Command

/-! When a text that starts with a word is one simple command. -/
namespace CommandWrap.Shell

open Grammar Script

/-- How the words of a script are expanded. -/
abbrev expandWord (depth : Nat) : Expand := expandWithin (depth + 1)

namespace Script

/-- Where reading goes on behind a simple command: behind the line feed if it brought documents. -/
def lineEnd (behind : Text) (placed : Placed) : Text :=
  if placed.token = .newline true ∧ placed.behind.length < behind.length then '\n' :: placed.behind
  else behind

variable {expand : Expand} {closing : Closing} {text : Text} {ts : List Placed}

lemma first?_eq_none_iff : first? expand closing text = some none ↔
    ∀ placed ∈ Lexer.tokens text, isNewline placed.token = true := by
  rw [first?]
  dsimp only
  rw [← List.dropWhile_eq_nil_iff]
  generalize (Lexer.tokens text).dropWhile (fun placed => isNewline placed.token) = ts
  cases ts with
  | nil => exact iff_of_true rfl rfl
  | cons placed ts =>
    refine iff_of_false (fun h => ?_) (List.cons_ne_nil _ _)
    obtain ⟨⟨phrase, rest⟩, -, h⟩ := Option.bind_eq_some_iff.mp h
    split_ifs at h
    simp at h

lemma behindDocuments?_word (t behind : Text) :
    behindDocuments? (⟨.word t, behind⟩ :: ts) = behindDocuments? ts := by
  rw [behindDocuments?, behindDocuments?, List.reverse_cons, List.find?_append]
  simp

lemma behindDocuments?_line {read : List Placed} (hread : ∀ placed ∈ read, placed.token.IsPart)
    (placed : Placed) : behindDocuments? (read ++ [placed]) =
      if placed.token = .newline true then some placed.behind else none := by
  rw [behindDocuments?, List.reverse_append, List.reverse_singleton, List.singleton_append, List.find?_cons]
  by_cases hline : placed.token = .newline true
  · simp [hline]
  · simp only [hline, decide_false, if_false, Option.map_eq_none_iff, List.find?_eq_none, List.mem_reverse]
    intro other hother htoken
    have hpart := hread other hother
    rw [of_decide_eq_true htoken] at hpart
    exact hpart

variable {t last : Text} {e phrase : Phrase} {placed : Placed} {after : List Placed}

/-- The tokens of a simple command, with those of the line feed, say where reading goes on. -/
lemma behind_of_readsSimple (h : ReadsSimple expand t last ts e (placed :: after)) :
    (match behindDocuments? ((⟨.word t, last⟩ :: ts).take ((⟨.word t, last⟩ :: ts).length - after.length)) with
      | some documentBehind =>
        if documentBehind.length < e.behind.length then '\n' :: documentBehind else e.behind
      | none => e.behind) = lineEnd e.behind placed := by
  obtain ⟨parts, trees, -, helements, -⟩ := h
  obtain ⟨read, rfl, -, hread, -⟩ := helements.spec
  have htake : (⟨.word t, last⟩ :: (read ++ placed :: after)).take
      ((⟨.word t, last⟩ :: (read ++ placed :: after)).length - after.length) =
        ⟨.word t, last⟩ :: (read ++ [placed]) := by
    rw [List.append_cons, ← List.cons_append, List.length_append, Nat.add_sub_cancel, List.take_left]
  rw [htake, behindDocuments?_word, behindDocuments?_line hread, lineEnd]
  by_cases hline : placed.token = .newline true
  · simp [hline]
  · simp [hline]

/-- Whether the text behind the line can be cut into tokens is seen at its first one. -/
def Readable (after : List Placed) : Prop := after.head?.any (fun placed => placed.token = .unreadable) = false

lemma first?_of_readsSimple (htokens : Lexer.tokens text = ⟨.word t, last⟩ :: ts)
    (h : ReadsSimple expand t last ts e (placed :: after)) (hline : isNewline placed.token = true)
    (hafter : Readable after) :
    first? expand .line text = some (some ⟨e.tree, lineEnd e.behind placed⟩) := by
  have hfuel : 3 ≤ 10 * ((⟨.word t, last⟩ :: ts).length + 1) := by omega
  rw [first?, htokens, List.dropWhile_cons_of_neg (by simp [isNewline])]
  dsimp only
  rw [if_neg (by simp), commands_of_readsSimple h hline hfuel]
  dsimp only [Option.bind_some]
  rw [if_neg fun hunreadable => Bool.false_ne_true (hafter.symm.trans hunreadable)]
  exact congrArg (fun behind => some (some (Phrase.mk e.tree behind))) (behind_of_readsSimple h)

lemma first?_cases (htokens : Lexer.tokens text = ⟨.word t, last⟩ :: ts)
    (h : first? expand .line text = some (some phrase)) :
    (∃ e placed after, ReadsSimple expand t last ts e (placed :: after) ∧ isNewline placed.token = true ∧
      Readable after ∧ phrase = ⟨e.tree, lineEnd e.behind placed⟩) ∨ ReadsJoined ts phrase := by
  have hfuel : 3 ≤ 10 * ((⟨.word t, last⟩ :: ts).length + 1) := by omega
  rw [first?, htokens, List.dropWhile_cons_of_neg (by simp [isNewline])] at h
  dsimp only at h
  rw [if_neg (by simp)] at h
  obtain ⟨⟨e, after⟩, hcommands, h⟩ := Option.bind_eq_some_iff.mp h
  dsimp only at h
  split_ifs at h with hunreadable
  obtain rfl := Option.some.inj (Option.some.inj h)
  rcases commands_cases hfuel hcommands with ⟨placed, hsimple, hline⟩ | hjoined
  · exact .inl ⟨e, placed, after, hsimple, hline, (Bool.not_eq_true _).mp hunreadable,
      congrArg (Phrase.mk e.tree) (behind_of_readsSimple hsimple)⟩
  · exact .inr hjoined

end Script

/-! ### Shapes -/

namespace Shape

variable {depth : Nat} {text : Text} {t last : Text} {ts : List Placed}

lemma commandsOf_eq_nil_iff {expand : Expand} {fuel : Nat} {behind : Text} (hfuel : 0 < fuel) :
    commandsOf expand fuel behind = some [] ↔ first? expand .line behind = some none := by
  obtain ⟨fuel, rfl⟩ := Nat.exists_eq_add_of_le' hfuel
  rw [commandsOf]
  cases first? expand .line behind with
  | none => simp
  | some phrase => cases phrase <;> simp

lemma ofText_of_first? {phrase : Phrase} (h : first? (expandWord depth) .line text = some (some phrase)) :
    ofText depth text = match commandsOf (expandWord depth) text.length (phrase.behind.drop 1) with
      | some trees => ofTrees (phrase.tree :: trees)
      | none => .unparseable := by
  rw [ofText, parse?, commandsOf, h]
  dsimp only [Option.bind_some]
  cases commandsOf (expandWord depth) text.length (phrase.behind.drop 1) <;> rfl

/-- A text that can be parsed has a first command. -/
lemma exists_first? (h : ofText depth text ≠ .unparseable) :
    ∃ phrase, first? (expandWord depth) .line text = some (some phrase) := by
  rw [ofText, parse?, commandsOf] at h
  cases hfirst : first? (expandWord depth) .line text with
  | none => simp [hfirst] at h
  | some phrase =>
    cases phrase with
    | none =>
      rw [hfirst] at h
      exact absurd rfl h
    | some phrase => exact ⟨phrase, rfl⟩

lemma ofTrees_cons_eq_simple_iff {tree : Tree} {trees : List Tree} :
    ofTrees (tree :: trees) = .simple ↔
      tree.kind? = some (Text.ofString "command") ∧ tree.hasNested = false ∧ trees = [] := by
  cases trees with
  | nil => simp [ofTrees]
  | cons second trees => simp [ofTrees]

/-- A simple text is one simple command with nothing behind it. -/
lemma ofText_eq_simple_iff (htext : text ≠ []) :
    ofText depth text = .simple ↔ ∃ phrase, first? (expandWord depth) .line text = some (some phrase) ∧
      phrase.tree.kind? = some (Text.ofString "command") ∧ phrase.tree.hasNested = false ∧
      first? (expandWord depth) .line (phrase.behind.drop 1) = some none := by
  have hmore : ∀ behind, commandsOf (expandWord depth) text.length behind = some [] ↔
      first? (expandWord depth) .line behind = some none := fun _ =>
    commandsOf_eq_nil_iff (List.length_pos_iff.mpr htext)
  constructor
  · intro h
    obtain ⟨phrase, hfirst⟩ := exists_first? (by rw [h]; decide : ofText depth text ≠ .unparseable)
    rw [ofText_of_first? hfirst] at h
    cases htrees : commandsOf (expandWord depth) text.length (phrase.behind.drop 1) with
    | none =>
      rw [htrees] at h
      cases h
    | some trees =>
      rw [htrees] at h
      obtain ⟨hkind, hnested, rfl⟩ := ofTrees_cons_eq_simple_iff.mp h
      exact ⟨phrase, hfirst, hkind, hnested, (hmore _).mp htrees⟩
  · rintro ⟨phrase, hfirst, hkind, hnested, hbehind⟩
    rw [ofText_of_first? hfirst, (hmore _).mpr hbehind]
    exact ofTrees_cons_eq_simple_iff.mpr ⟨hkind, hnested, rfl⟩

/-- The elements bring no commands of their own, end with the line, and nothing stands behind it. -/
def StandsAlone (expand : Expand) (last : Text) (ts : List Placed) : Prop :=
  ∃ trees behind placed after, Elements expand last ts trees behind (placed :: after) ∧
    isNewline placed.token = true ∧ Readable after ∧ Tree.anyHasNested trees = false ∧
    first? expand .line ((lineEnd behind placed).drop 1) = some none

/-- The word holds no substitution. -/
def IsPlainWord (expand : Expand) (t : Text) : Prop :=
  ∃ parts, expand t = some parts ∧ Tree.anyHasNested parts = false

lemma hasNested_command {parts trees : List Tree} :
    (Tree.of "command" (.of "word" parts :: trees)).hasNested = false ↔
      Tree.anyHasNested parts = false ∧ Tree.anyHasNested trees = false := by
  rw [hasNested_of (by decide) (by decide), Tree.anyHasNested, hasNested_of (by decide) (by decide),
    Bool.or_eq_false_iff]

theorem ofText_eq_simple_iff_standsAlone (htokens : Lexer.tokens text = ⟨.word t, last⟩ :: ts) :
    ofText depth text = .simple ↔
      IsPlainWord (expandWord depth) t ∧ StandsAlone (expandWord depth) last ts := by
  have htext : text ≠ [] := by
    rintro rfl
    cases htokens
  rw [ofText_eq_simple_iff htext]
  constructor
  · rintro ⟨phrase, hfirst, hkind, hnested, hbehind⟩
    rcases first?_cases htokens hfirst with ⟨e, placed, after, hsimple, hline, hafter, rfl⟩ | ⟨hne, -⟩
    · obtain ⟨parts, trees, hparts, helements, htree⟩ := hsimple
      rw [htree, hasNested_command] at hnested
      exact ⟨⟨parts, hparts, hnested.1⟩, trees, e.behind, placed, after, helements, hline, hafter,
        hnested.2, hbehind⟩
    · exact absurd hkind hne
  · rintro ⟨⟨parts, hparts, hplain⟩, trees, behind, placed, after, helements, hline, hafter, hnested,
      hbehind⟩
    have hsimple : ReadsSimple (expandWord depth) t last ts ⟨.of "command" (.of "word" parts :: trees), behind⟩
        (placed :: after) := ⟨parts, trees, hparts, helements, rfl⟩
    exact ⟨_, first?_of_readsSimple htokens hsimple hline hafter, rfl,
      hasNested_command.mpr ⟨hplain, hnested⟩, hbehind⟩

/-- One more word in front changes nothing but that it has to be plain. -/
theorem standsAlone_word {expand : Expand} {behindWord : Text} :
    StandsAlone expand last (⟨.word t, behindWord⟩ :: ts) ↔
      IsPlainWord expand t ∧ StandsAlone expand behindWord ts := by
  constructor
  · rintro ⟨trees, behind, placed, after, helements, hline, hafter, hnested, hbehind⟩
    cases helements with
    | stop h => simp [startsElement] at h
    | more h tail =>
      obtain ⟨parts, hparts, hpair⟩ := Option.map_eq_some_iff.mp h
      obtain ⟨rfl, rfl⟩ := Prod.mk.inj hpair
      rw [Tree.anyHasNested, Bool.or_eq_false_iff, hasNested_of (by decide) (by decide)] at hnested
      exact ⟨⟨parts, hparts, hnested.1⟩, _, behind, placed, after, tail, hline, hafter, hnested.2, hbehind⟩
  · rintro ⟨⟨parts, hparts, hplain⟩, trees, behind, placed, after, helements, hline, hafter, hnested,
      hbehind⟩
    have hword : element expand (⟨.word t, behindWord⟩ :: ts) =
        some (⟨.of "word" parts, behindWord⟩, ts) := by
      rw [element, hparts]
      rfl
    refine ⟨_, behind, placed, after, .more hword helements, hline, hafter, ?_, hbehind⟩
    rw [Tree.anyHasNested, hasNested_of (by decide) (by decide), hplain, hnested]
    rfl

end Shape
end CommandWrap.Shell

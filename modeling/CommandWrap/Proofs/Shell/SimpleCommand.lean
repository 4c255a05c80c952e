import Mathlib
import CommandWrap.Shell.Script

/-! The tokens that a simple command is read from, and the trees that they become. -/
namespace CommandWrap.Shell

namespace Reader

variable {α β : Type} {ts : List Placed}

lemma bind_eq_some {x : Reader α} {f : α → Reader β} {r : β × List Placed} :
    (x >>= f) ts = some r ↔ ∃ a rest, x ts = some (a, rest) ∧ f a rest = some r := by
  refine Option.bind_eq_some_iff.trans ⟨?_, ?_⟩
  · rintro ⟨⟨a, rest⟩, hx, hf⟩
    exact ⟨a, rest, hx, hf⟩
  · rintro ⟨a, rest, hx, hf⟩
    exact ⟨(a, rest), hx, hf⟩

lemma bind_of_eq {x : Reader α} {f : α → Reader β} {a : α} {rest : List Placed} (h : x ts = some (a, rest)) :
    (x >>= f) ts = f a rest := by
  change (x ts).bind _ = _
  rw [h]
  rfl

lemma peek_bind (f : Option Token → Reader β) :
    (Grammar.peek >>= f) ts = f (ts.head?.map (·.token)) ts := rfl

lemma pure_eq_some {a b : α} {rest : List Placed} (h : (pure a : Reader α) ts = some (b, rest)) :
    a = b ∧ ts = rest := Prod.mk.inj (Option.some.inj h)

end Reader

/-- Words, redirections and what belongs to them. -/
def Token.IsPart : Token → Prop
  | .word _ | .assignment _ | .number | .dash | .redirection _ => True
  | _ => False

/-- The token holds a substitution, or starts a here-document or a here-string. -/
def Token.Nests (expand : Grammar.Expand) : Token → Prop
  | .word t | .assignment t => ∃ parts, expand t = some parts ∧ Tree.anyHasNested parts = true
  | .redirection .hereString | .redirection (.hereDocument _) => True
  | _ => False

@[simp] lemma Token.not_nests_number (expand : Grammar.Expand) : ¬ Token.number.Nests expand := id

@[simp] lemma Token.not_nests_dash (expand : Grammar.Expand) : ¬ Token.dash.Nests expand := id

@[simp] lemma Token.isPart_number : Token.number.IsPart := trivial

@[simp] lemma Token.isPart_redirection (r : Redirection) : (Token.redirection r).IsPart := trivial

namespace Grammar

variable {expand : Expand} {ts rest : List Placed} {e : Phrase}

/-! ### Elements -/

/-- The parts that are read, and what they become. -/
structure ReadsParts (expand : Expand) (ts : List Placed) (e : Phrase) (rest parts : List Placed) : Prop where
  split : ts = parts ++ rest
  last : ∃ front token, parts = front ++ [⟨token, e.behind⟩]
  isPart : ∀ placed ∈ parts, placed.token.IsPart
  nests : e.tree.hasNested = true ↔ ∃ placed ∈ parts, placed.token.Nests expand

lemma hasNested_of {kind : Text} (hkind : Tree.isSubstitution (some kind) = false)
    (hredirect : kind ≠ Text.ofString "redirect") (parts : List Tree) :
    (Tree.of kind parts).hasNested = Tree.anyHasNested parts := by
  rw [Tree.of, Tree.hasNested, hkind]
  simp [hredirect]

lemma hasNested_redirect (type : Text) (target : Tree) :
    (Tree.redirect type target).hasNested =
      (Tree.isDocument (some type) || Tree.targetHasNested (some target)) := by
  rw [Tree.redirect, Tree.hasNested, Tree.anyHasNested]
  have hkind : Tree.isSubstitution (some (Text.ofString "redirect")) = false := by decide
  simp [hkind]

lemma isDocument_symbol (expand : Expand) (r : Redirection) :
    Tree.isDocument (some r.symbol) = true ↔ (Token.redirection r).Nests expand := by
  cases r with
  | hereDocument stripTabs =>
    refine iff_of_true ?_ trivial
    cases stripTabs <;> decide
  | hereString => exact iff_of_true (by decide) trivial
  | _ => exact iff_of_false (by decide) id

lemma nests_of_expand {t : Text} {parts : List Tree} (h : expand t = some parts) :
    Tree.anyHasNested parts = true ↔ (Token.word t).Nests expand := by
  simp [Token.Nests, h]

lemma nests_duplication (expand : Expand) {r : Redirection} (h : r.isDuplication = true) :
    (Tree.redirect r.symbol .leaf).hasNested = false ∧ ¬ (Token.redirection r).Nests expand := by
  cases r <;> simp [Redirection.isDuplication] at h
  · exact ⟨by decide, id⟩
  · exact ⟨by decide, id⟩

/-- A redirection takes one token to lead to. -/
lemma target_spec {r : Redirection} (h : target expand r ts = some (e, rest)) :
    ∃ token, ts = ⟨token, e.behind⟩ :: rest ∧ token.IsPart ∧
      (e.tree.hasNested = true ↔ (Token.redirection r).Nests expand ∨ token.Nests expand) := by
  rw [target.eq_def] at h
  split at h
  · rename_i t behind rest'
    split_ifs at h with hdocument
    · obtain ⟨rfl, rfl⟩ := Prod.mk.inj (Option.some.inj h)
      refine ⟨_, rfl, trivial, iff_of_true ?_ (.inl ?_)⟩
      · rw [hasNested_redirect, Bool.or_eq_true]
        left
        cases r <;> simp [isHereDocument] at hdocument
        exact (isDocument_symbol expand _).mpr trivial
      · cases r <;> simp [isHereDocument] at hdocument
        trivial
    · obtain ⟨parts, hparts, hmap⟩ := Option.map_eq_some_iff.mp h
      obtain ⟨rfl, rfl⟩ := Prod.mk.inj hmap
      refine ⟨_, rfl, trivial, ?_⟩
      rw [hasNested_redirect, Bool.or_eq_true, isDocument_symbol expand, Tree.targetHasNested]
      have hkind : (Tree.of (Text.ofString "word") parts).kind?.isSome = true := rfl
      rw [hkind, Bool.true_and, hasNested_of (by decide) (by decide), nests_of_expand hparts]
  -- Where no word follows, only a duplication leads somewhere: to a number or to a dash.
  all_goals try split_ifs at h with hduplication
  · obtain ⟨rfl, rfl⟩ := Prod.mk.inj (Option.some.inj h)
    obtain ⟨htree, hnests⟩ := nests_duplication expand hduplication
    exact ⟨_, rfl, trivial, iff_of_false (by simp [htree]) (by simp [hnests])⟩
  · obtain ⟨rfl, rfl⟩ := Prod.mk.inj (Option.some.inj h)
    obtain ⟨htree, hnests⟩ := nests_duplication expand hduplication
    exact ⟨_, rfl, trivial, iff_of_false (by simp [htree]) (by simp [hnests])⟩
  · simp at h

/-- A redirection is its sign and its target, perhaps behind a number. -/
lemma redirection_spec (h : redirection expand ts = some (e, rest)) :
    ∃ parts, ReadsParts expand ts e rest parts := by
  rw [redirection.eq_def] at h
  split at h
  · rename_i behindNumber r behindSign rest'
    split_ifs at h
    obtain ⟨token, rfl, hpart, hnests⟩ := target_spec h
    exact ⟨[⟨.number, behindNumber⟩, ⟨.redirection r, behindSign⟩, ⟨token, e.behind⟩], rfl,
      ⟨[_, _], token, rfl⟩, by simp [hpart], by simp [hnests]⟩
  · rename_i _ r behindSign rest'
    obtain ⟨token, rfl, hpart, hnests⟩ := target_spec h
    exact ⟨[⟨.redirection r, behindSign⟩, ⟨token, e.behind⟩], rfl, ⟨[_], token, rfl⟩,
      by simp [hpart], by simp [hnests]⟩
  · simp at h

lemma element_spec (h : element expand ts = some (e, rest)) :
    ∃ parts, ReadsParts expand ts e rest parts := by
  rw [element.eq_def] at h
  split at h
  · rename_i t behind rest'
    obtain ⟨trees, htrees, hmap⟩ := Option.map_eq_some_iff.mp h
    obtain ⟨rfl, rfl⟩ := Prod.mk.inj hmap
    refine ⟨[⟨.word t, behind⟩], rfl, ⟨[], _, rfl⟩, by simp [Token.IsPart], ?_⟩
    rw [hasNested_of (by decide) (by decide), nests_of_expand htrees]
    simp
  · rename_i t behind rest'
    obtain ⟨trees, htrees, hmap⟩ := Option.map_eq_some_iff.mp h
    obtain ⟨rfl, rfl⟩ := Prod.mk.inj hmap
    refine ⟨[⟨.assignment t, behind⟩], rfl, ⟨[], _, rfl⟩, by simp [Token.IsPart], ?_⟩
    rw [hasNested_of (by decide) (by decide), nests_of_expand htrees]
    simp [Token.Nests]
  · exact redirection_spec h

/-- An element starts with a token that may start one. -/
lemma startsElement_of_element (h : element expand ts = some (e, rest)) :
    ts.head?.any (startsElement ·.token) = true := by
  rw [element.eq_def] at h
  split at h
  · rfl
  · rfl
  · rw [redirection.eq_def] at h
    split at h
    · rfl
    · rfl
    · simp at h

/-- Elements, one behind the other, up to a token that starts none. -/
inductive Elements (expand : Expand) : Text → List Placed → List Tree → Text → List Placed → Prop
  | stop {last : Text} {ts : List Placed} (h : ts.head?.any (startsElement ·.token) = false) :
      Elements expand last ts [] last ts
  | more {last behind : Text} {ts rest after : List Placed} {e : Phrase} {trees : List Tree}
      (h : element expand ts = some (e, rest)) (tail : Elements expand e.behind rest trees behind after) :
      Elements expand last ts (e.tree :: trees) behind after

variable {last behind : Text} {after : List Placed} {trees front : List Tree} {fuel : Nat}

lemma elements_succ (expand : Expand) (fuel : Nat) (front : List Tree) (last : Text) (ts : List Placed) :
    elements expand (fuel + 1) front last ts =
      if ts.head?.any (startsElement ·.token) = true then
        (element expand ts).bind fun (e, rest) => elements expand fuel (front ++ [e.tree]) e.behind rest
      else some (⟨.of "command" front, last⟩, ts) := by
  rw [elements, Reader.peek_bind, Option.any_map]
  split
  · rfl
  · rfl

lemma elements_of_eq_some (h : elements expand fuel front last ts = some (e, after)) :
    ∃ trees, e.tree = .of "command" (front ++ trees) ∧ Elements expand last ts trees e.behind after := by
  induction fuel generalizing front last ts with
  | zero => simp [elements, fail] at h
  | succ fuel ih =>
    rw [elements_succ] at h
    split_ifs at h with hstart
    · obtain ⟨⟨first, rest⟩, hfirst, h⟩ := Option.bind_eq_some_iff.mp h
      obtain ⟨trees, htree, helements⟩ := ih h
      exact ⟨first.tree :: trees, by rw [htree, List.append_assoc, List.singleton_append],
        .more hfirst helements⟩
    · obtain ⟨rfl, rfl⟩ := Prod.mk.inj (Option.some.inj h)
      exact ⟨[], by rw [List.append_nil], .stop (by simpa using hstart)⟩

lemma Elements.eq_some (h : Elements expand last ts trees behind after) (hfuel : ts.length < fuel) :
    elements expand fuel front last ts = some (⟨.of "command" (front ++ trees), behind⟩, after) := by
  induction h generalizing fuel front with
  | stop h =>
    cases fuel with
    | zero => omega
    | succ fuel => rw [elements_succ, h, if_neg Bool.false_ne_true, List.append_nil]
  | more hfirst _ ih =>
    obtain ⟨parts, hparts⟩ := element_spec hfirst
    obtain ⟨others, token, rfl⟩ := hparts.last
    have hlength := congrArg List.length hparts.split
    simp only [List.length_append, List.length_cons, List.length_nil] at hlength
    cases fuel with
    | zero => omega
    | succ fuel =>
      rw [elements_succ, startsElement_of_element hfirst, if_pos rfl, hfirst]
      dsimp only [Option.bind]
      rw [ih (by omega), List.append_assoc, List.singleton_append]

/-- Elements read words, redirections and what belongs to them, up to where they end. -/
lemma Elements.spec (h : Elements expand last ts trees behind after) :
    ∃ parts, ts = parts ++ after ∧ behind = (parts.getLast?.map (·.behind)).getD last ∧
      (∀ placed ∈ parts, placed.token.IsPart) ∧
      (Tree.anyHasNested trees = true ↔ ∃ placed ∈ parts, placed.token.Nests expand) := by
  induction h with
  | stop h => exact ⟨[], rfl, rfl, by simp, by simp [Tree.anyHasNested]⟩
  | @more last behind ts rest after e trees hfirst _ ih =>
    obtain ⟨first, hread⟩ := element_spec hfirst
    obtain ⟨parts, rfl, hbehind, hpart, hnests⟩ := ih
    refine ⟨first ++ parts, by rw [hread.split, List.append_assoc], ?_, ?_, ?_⟩
    · obtain ⟨others, token, rfl⟩ := hread.last
      rw [hbehind, List.getLast?_append]
      cases parts.getLast? <;> simp
    · exact fun placed h => (List.mem_append.mp h).elim (hread.isPart placed) (hpart placed)
    · rw [Tree.anyHasNested, Bool.or_eq_true, hread.nests, hnests]
      simp only [List.mem_append, or_and_right, exists_or]

end Grammar
end CommandWrap.Shell

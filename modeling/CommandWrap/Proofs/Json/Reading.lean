import Mathlib
import CommandWrap.Proofs.Except
import CommandWrap.Proofs.Json.Contents
import CommandWrap.Proofs.Json.NumberText
import CommandWrap.Proofs.Json.StringText
import CommandWrap.Text.Blank

/-! What is read from a text can be held by a document: numbers are short enough, and names are distinct. If
it is a text of characters, strings are joined, and the document can be written again. -/
namespace CommandWrap.Json

variable {kind : CodePoint → Prop} {texts : Text → Prop}

/-- What is read has a property, and the signs behind it are of a kind, as those of the whole are. -/
def Reads {α : Type} (kind : CodePoint → Prop) (read : Text → Reading α) (p : α → Prop) : Prop :=
  ∀ here a rest, (∀ c ∈ here, kind c) → read here = .ok (a, rest) → p a ∧ ∀ c ∈ rest, kind c

lemma forall_mem_skipBlanks {t : Text} (ht : ∀ c ∈ t, kind c) : ∀ c ∈ skipBlanks t, kind c :=
  fun c hc => ht c ((List.dropWhile_sublist _).subset hc)

/-! ### Strings -/

lemma isSurrogate_shortEscape {e d : CodePoint} (h : shortEscape? e = some d) : d.isSurrogate = false := by
  rw [shortEscape?] at h
  split_ifs at h with h1
  · obtain rfl := Option.some.inj h
    rcases h1 with rfl | rfl | rfl <;> decide
  all_goals
    obtain rfl := Option.some.inj h
    decide

lemma stringRest_behind {opening : Text} {read : List Unit} {here t rest : Text}
    (h : stringRest opening read here = .ok (t, rest)) : rest <:+ here := by
  fun_induction stringRest opening read here with
  | case2 read behind =>
    obtain ⟨-, rfl⟩ := Prod.mk.inj (Except.ok.inj h)
    exact List.suffix_cons _ _
  | case4 read a b c d next more unit hunit hne ih =>
    exact (ih h).trans ⟨[CodePoint.ofChar '\\', CodePoint.ofChar 'u', a, b, c, d], rfl⟩
  | case7 read e behind he d hd hne ih => exact (ih h).trans ⟨[_, e], rfl⟩
  | case10 read c behind hquote hslash hcontrol ih => exact (ih h).trans (List.suffix_cons _ _)
  | case1 | case3 | case5 | case6 | case8 | case9 => simp [fail] at h

lemma joined_of_stringRest {opening : Text} {read : List Unit} {here t rest : Text}
    (hread : ∀ d, .plain d ∈ read → d.isSurrogate = false) (hhere : here.IsScalar)
    (h : stringRest opening read here = .ok (t, rest)) : t.Joined := by
  have hplain : ∀ {read : List Unit} {c : CodePoint}, (∀ d, .plain d ∈ read → d.isSurrogate = false) →
      c.isSurrogate = false → ∀ d, .plain d ∈ Unit.plain c :: read → d.isSurrogate = false := by
    intro read c hread hc d hd
    rcases List.mem_cons.mp hd with hd | hd
    · rwa [Unit.plain.inj hd]
    · exact hread d hd
  fun_induction stringRest opening read here with
  | case2 read behind =>
    obtain ⟨rfl, -⟩ := Prod.mk.inj (Except.ok.inj h)
    exact joinUnits_joined fun d hd => hread d (List.mem_reverse.mp hd)
  | case4 read a b c d next more unit hunit hne ih =>
    refine ih (fun e he => hread e (by simpa using he)) ?_ h
    exact fun e he => hhere e (by simp only [List.mem_cons] at he ⊢; tauto)
  | case7 read e behind he d hd hne ih =>
    exact ih (hplain hread (isSurrogate_shortEscape hd))
        (Text.isScalar_cons.mp (Text.isScalar_cons.mp hhere).2).2 h
  | case10 read c behind hquote hslash hcontrol ih =>
    exact ih (hplain hread (Text.isScalar_cons.mp hhere).1) (Text.isScalar_cons.mp hhere).2 h
  | case1 | case3 | case5 | case6 | case8 | case9 => simp [fail] at h

/-- Strings in a text with signs of a kind have a property. -/
def Quotes (kind : CodePoint → Prop) (texts : Text → Prop) : Prop :=
  ∀ opening, Reads kind (stringRest opening []) texts

lemma quotes_joined : Quotes (fun c => c.isSurrogate = false) Text.Joined :=
  fun _ _ _ _ hhere h => ⟨joined_of_stringRest (by simp) hhere h,
    fun c hc => hhere c ((stringRest_behind h).subset hc)⟩

lemma scalar_reads : Reads kind scalar (Throughout (IsReadableWith texts)) := by
  intro here v rest hhere h
  refine ⟨?_, (flat_scalar h).forall_mem hhere⟩
  rw [scalar] at h
  split at h
  · rename_i word value hfind
    obtain ⟨rfl, -⟩ := Prod.mk.inj (Except.ok.inj h)
    have hmem := List.mem_of_find?_eq_some hfind
    simp only [wordValues, List.mem_cons, List.not_mem_nil, or_false, Prod.mk.injEq] at hmem
    rcases hmem with ⟨-, rfl⟩ | ⟨-, rfl⟩ | ⟨-, rfl⟩ | ⟨-, rfl⟩ | ⟨-, rfl⟩ | ⟨-, rfl⟩ <;> trivial
  · rcases number_value h with ⟨x, rfl⟩ | ⟨n, rfl, hshort⟩
    · trivial
    · exact hshort

/-! ### Arrays and objects -/

lemma eq_cons_of_after {c : CodePoint} {flaw : SyntaxFlaw} {here rest : Text}
    (h : after c flaw here = .ok rest) : here = c :: rest := by
  cases here with
  | nil => simp [after] at h
  | cons d behind =>
    simp only [after] at h
    split_ifs at h with hd
    rw [hd, Except.ok.inj h]

lemma forall_mem_after {c : CodePoint} {flaw : SyntaxFlaw} {here rest : Text}
    (hhere : ∀ c ∈ here, kind c) (h : after c flaw here = .ok rest) : ∀ c ∈ rest, kind c := by
  rw [eq_cons_of_after h] at hhere
  exact fun d hd => hhere d (List.mem_cons_of_mem c hd)

/-- The list was read as one or more of what `one` relates, with commas between them, up to the closing
sign. -/
inductive Listed {α : Type} (one : Text → α → Text → Prop) (closing : CodePoint) :
    Text → List α → Text → Prop
  | last {here behind : Text} {a : α} (hone : one here a behind)
      (hclose : (skipBlanks behind).head? = some closing) :
      Listed one closing here [a] ((skipBlanks behind).drop 1)
  | more {here behind next rest : Text} {a : α} {list : List α} (hone : one here a behind)
      (hcomma : after (CodePoint.ofChar ',') .expectingComma (skipBlanks behind) = .ok next)
      (hmore : Listed one closing (skipBlanks next) list rest) :
      Listed one closing here (a :: list) rest

/-- A member is a quoted name, a colon and a value. -/
def MemberAt (element : Text → Reading Json) (here : Text) (member : Text × Json) (behind : Text) :
    Prop :=
  ∃ quoted behindName colon, after (CodePoint.ofChar '"') .expectingName here = .ok quoted ∧
    stringRest here [] quoted = .ok (member.1, behindName) ∧
    after (CodePoint.ofChar ':') .expectingColon (skipBlanks behindName) = .ok colon ∧
    element (skipBlanks colon) = .ok (member.2, behind)

section

variable {element : Text → Reading Json} {here rest : Text}

lemma listed_of_items {fuel : Nat} {list : List Json}
    (h : items element fuel here = .ok (list, rest)) :
    Listed (fun here item behind => element here = .ok (item, behind)) (CodePoint.ofChar ']')
      here list rest := by
  induction fuel generalizing here list with
  | zero => simp [items, fail] at h
  | succ fuel ih =>
    rw [items] at h
    obtain ⟨⟨item, behind⟩, hitem, h⟩ := bind_eq_ok h
    dsimp only at h
    split_ifs at h with hclose
    · obtain ⟨rfl, rfl⟩ := Prod.mk.inj (Except.ok.inj h)
      exact .last hitem hclose
    · obtain ⟨next, hnext, h⟩ := bind_eq_ok h
      obtain ⟨⟨more, rest⟩, hmore, h⟩ := map_eq_ok h
      obtain ⟨rfl, rfl⟩ := Prod.mk.inj h
      exact .more hitem hnext (ih hmore)

lemma listed_of_members {fuel : Nat} {list : List (Text × Json)}
    (h : members element fuel here = .ok (list, rest)) :
    Listed (MemberAt element) (CodePoint.ofChar '\x7d') here list rest := by
  induction fuel generalizing here list with
  | zero => simp [members, fail] at h
  | succ fuel ih =>
    rw [members] at h
    obtain ⟨quoted, hquoted, h⟩ := bind_eq_ok h
    obtain ⟨⟨name, behindName⟩, hname, h⟩ := bind_eq_ok h
    obtain ⟨colon, hcolon, h⟩ := bind_eq_ok h
    obtain ⟨⟨value, behind⟩, hvalue, h⟩ := bind_eq_ok h
    have hmember : MemberAt element here (name, value) behind :=
      ⟨quoted, behindName, colon, hquoted, hname, hcolon, hvalue⟩
    dsimp only at h
    split_ifs at h with hclose
    · obtain ⟨rfl, rfl⟩ := Prod.mk.inj (Except.ok.inj h)
      exact .last hmember hclose
    · obtain ⟨next, hnext, h⟩ := bind_eq_ok h
      obtain ⟨⟨more, rest⟩, hmore, h⟩ := map_eq_ok h
      obtain ⟨rfl, rfl⟩ := Prod.mk.inj h
      exact .more hmember hnext (ih hmore)

end

namespace Listed

variable {α : Type} {one : Text → α → Text → Prop} {closing : CodePoint} {here rest : Text}
  {list : List α}

lemma of_mem (h : Listed one closing here list rest) :
    ∀ a ∈ list, ∃ start behind, one start a behind := by
  induction h with
  | last hone _ =>
    intro b hb
    rw [List.mem_singleton.mp hb]
    exact ⟨_, _, hone⟩
  | more hone _ _ ih =>
    intro b hb
    rcases List.mem_cons.mp hb with rfl | hb
    · exact ⟨_, _, hone⟩
    · exact ih b hb

lemma reads (h : Listed one closing here list rest) {p : α → Prop}
    (hone : ∀ here a behind, (∀ c ∈ here, kind c) → one here a behind → p a ∧ ∀ c ∈ behind, kind c)
    (hhere : ∀ c ∈ here, kind c) : (∀ a ∈ list, p a) ∧ ∀ c ∈ rest, kind c := by
  induction h with
  | last hlast _ =>
    obtain ⟨hp, hbehind⟩ := hone _ _ _ hhere hlast
    refine ⟨by simpa using hp, fun c hc => ?_⟩
    exact forall_mem_skipBlanks hbehind c (List.mem_of_mem_drop hc)
  | more hfirst hcomma _ ih =>
    obtain ⟨hp, hbehind⟩ := hone _ _ _ hhere hfirst
    have hnext := forall_mem_after (forall_mem_skipBlanks hbehind) hcomma
    obtain ⟨hmore, hrest⟩ := ih (forall_mem_skipBlanks hnext)
    exact ⟨List.forall_mem_cons.mpr ⟨hp, hmore⟩, hrest⟩

end Listed

/-- The name has the property of texts, and the value can be read. -/
def IsReadableMember (texts : Text → Prop) (member : Text × Json) : Prop :=
  texts member.1 ∧ Throughout (IsReadableWith texts) member.2

section

variable {element : Text → Reading Json}

lemma memberAt_reads (hquotes : Quotes kind texts)
    (helement : Reads kind element (Throughout (IsReadableWith texts))) {here behind : Text}
    {member : Text × Json} (hhere : ∀ c ∈ here, kind c) (h : MemberAt element here member behind) :
    IsReadableMember texts member ∧ ∀ c ∈ behind, kind c := by
  obtain ⟨quoted, behindName, colon, hquoted, hname, hcolon, hvalue⟩ := h
  obtain ⟨hread, hbehindName⟩ := hquotes _ _ _ _ (forall_mem_after hhere hquoted) hname
  have hstart := forall_mem_skipBlanks (forall_mem_after (forall_mem_skipBlanks hbehindName) hcolon)
  obtain ⟨hreadable, hbehind⟩ := helement _ _ _ hstart hvalue
  exact ⟨⟨hread, hreadable⟩, hbehind⟩

lemma arrayRest_reads (helement : Reads kind element (Throughout (IsReadableWith texts))) :
    Reads kind (arrayRest element) (Throughout (IsReadableWith texts)) := by
  intro here v rest hhere h
  have hhere := forall_mem_skipBlanks hhere
  rw [arrayRest] at h
  split_ifs at h
  · obtain ⟨rfl, rfl⟩ := Prod.mk.inj (Except.ok.inj h)
    exact ⟨⟨trivial, trivial⟩, fun c hc => hhere c (List.mem_of_mem_drop hc)⟩
  · obtain ⟨⟨list, rest⟩, hlist, h⟩ := map_eq_ok h
    obtain ⟨rfl, rfl⟩ := Prod.mk.inj h
    obtain ⟨hreads, hrest⟩ := (listed_of_items hlist).reads helement hhere
    exact ⟨⟨trivial, throughoutItems_iff.mpr hreads⟩, hrest⟩

lemma objectRest_reads (hquotes : Quotes kind texts)
    (helement : Reads kind element (Throughout (IsReadableWith texts))) :
    Reads kind (objectRest element) (Throughout (IsReadableWith texts)) := by
  intro here v rest hhere h
  have hhere := forall_mem_skipBlanks hhere
  rw [objectRest] at h
  split_ifs at h
  · obtain ⟨rfl, rfl⟩ := Prod.mk.inj (Except.ok.inj h)
    exact ⟨⟨⟨List.nodup_nil, by simp⟩, trivial⟩, fun c hc => hhere c (List.mem_of_mem_drop hc)⟩
  · obtain ⟨⟨pairs, rest⟩, hpairs, h⟩ := map_eq_ok h
    obtain ⟨rfl, rfl⟩ := Prod.mk.inj h
    obtain ⟨hreads, hrest⟩ := (listed_of_members hpairs).reads
      (fun _ _ _ hhere hmember => memberAt_reads hquotes helement hhere hmember) hhere
    have hkept : ∀ member ∈ Entries.ofList pairs, IsReadableMember texts member :=
      fun member hmember => hreads member (Entries.mem_of_mem_ofList hmember)
    refine ⟨⟨⟨Entries.nodup_keys_ofList pairs, fun name hname => ?_⟩,
      throughoutMembers_iff.mpr fun member hmember => (hkept member hmember).2⟩, hrest⟩
    obtain ⟨member, hmember, rfl⟩ := List.mem_map.mp hname
    exact (hkept member hmember).1

end

lemma valueOver_reads (hquotes : Quotes kind texts) {inside : Option (Text → Reading Json)}
    (hinside : ∀ element ∈ inside, Reads kind element (Throughout (IsReadableWith texts))) :
    Reads kind (valueOver inside) (Throughout (IsReadableWith texts)) := by
  intro here v rest hhere h
  cases here with
  | nil => simp [valueOver, fail] at h
  | cons c behind =>
    have hbehind := (List.forall_mem_cons.mp hhere).2
    rw [valueOver.eq_def] at h
    dsimp only at h
    split_ifs at h
    · obtain ⟨⟨t, rest⟩, ht, h⟩ := map_eq_ok h
      obtain ⟨rfl, rfl⟩ := Prod.mk.inj h
      exact hquotes _ _ _ _ hbehind ht
    · cases inside with
      | none => simp at h
      | some element => exact arrayRest_reads (hinside element rfl) _ _ _ hbehind h
    · cases inside with
      | none => simp at h
      | some element => exact objectRest_reads hquotes (hinside element rfl) _ _ _ hbehind h
    · exact scalar_reads _ _ _ hhere h

lemma value_reads (hquotes : Quotes kind texts) (d : Nat) :
    Reads kind (value d) (Throughout (IsReadableWith texts)) := by
  induction d with
  | zero => exact valueOver_reads hquotes (by simp)
  | succ d ih =>
    refine valueOver_reads hquotes fun element helement => ?_
    obtain rfl : value d = element := by simpa using helement
    exact ih

variable {limit : Limit}

/-- A document is one value, with blanks around it. -/
lemma value_of_parse {text : Text} {v : Json} (h : parse limit text = .ok v) :
    ∃ rest, value limit.levels (skipBlanks text) = .ok (v, rest) ∧ skipBlanks rest = [] := by
  rw [parse, parseWithin] at h
  have h := mapError_eq_ok h
  rw [document] at h
  split_ifs at h
  obtain ⟨⟨found, rest⟩, hvalue, h⟩ := bind_eq_ok h
  dsimp only at h
  split_ifs at h with hrest
  exact ⟨rest, Except.ok.inj h ▸ hvalue, hrest⟩

lemma parse_readsWith (hquotes : Quotes kind texts) {text : Text} {v : Json}
    (htext : ∀ c ∈ text, kind c) (h : parse limit text = .ok v) :
    Throughout (IsReadableWith texts) v := by
  obtain ⟨rest, hvalue, -⟩ := value_of_parse h
  exact (value_reads hquotes _ _ _ _ (forall_mem_skipBlanks htext) hvalue).1

/-- What a document of characters holds can be held by a document again. -/
theorem parse_reads {text : Text} {v : Json} (htext : text.IsScalar) (h : parse limit text = .ok v) :
    Throughout IsReadable v := parse_readsWith quotes_joined htext h

lemma scalar_ne_object {here rest : Text} {m : Entries Json} : scalar here ≠ .ok (.object m, rest) := by
  intro h
  rw [scalar] at h
  split at h
  · rename_i word value hfind
    have hword : ∀ entry ∈ wordValues, ∀ m, entry.2 ≠ .object m := by simp [wordValues]
    refine hword _ (List.mem_of_find?_eq_some hfind) m ?_
    exact (Prod.mk.inj (Except.ok.inj h)).1
  · rcases number_value h with ⟨_, hv⟩ | ⟨_, hv, -⟩ <;> cases hv

/-- An object stands between braces, and what it holds is read from inside. -/
lemma valueOver_object {inside : Option (Text → Reading Json)} {here rest : Text} {m : Entries Json}
    (h : valueOver inside here = .ok (.object m, rest)) :
    ∃ more, here = CodePoint.ofChar '\x7b' :: more ∧
      ∃ element ∈ inside, objectRest element more = .ok (.object m, rest) := by
  cases here with
  | nil => simp [valueOver, fail] at h
  | cons c more =>
    simp only [valueOver] at h
    split_ifs at h with hquote harray hobject
    · obtain ⟨_, _, hvalue⟩ := map_eq_ok h
      simp at hvalue
    · cases inside with
      | none => simp at h
      | some element =>
        simp only [arrayRest] at h
        split_ifs at h
        · simp at h
        · obtain ⟨_, _, hvalue⟩ := map_eq_ok h
          simp at hvalue
    · cases inside with
      | none => simp at h
      | some element => exact ⟨more, by rw [hobject], element, rfl, h⟩
    · exact absurd h scalar_ne_object

lemma Limit.exists_levels (limit : Limit) : ∃ below, limit.levels = below + 1 :=
  Nat.exists_eq_add_of_le' (le_trans (by decide : 1 ≤ 400) limit.plenty)

/-- There is a level below that of an object. -/
lemma value_object {d : Nat} {here rest : Text} {m : Entries Json}
    (h : value d here = .ok (.object m, rest)) :
    ∃ more below, here = CodePoint.ofChar '\x7b' :: more ∧ d = below + 1 ∧
      objectRest (value below) more = .ok (.object m, rest) := by
  cases d with
  | zero =>
    obtain ⟨_, -, element, helement, -⟩ := valueOver_object h
    cases helement
  | succ below =>
    obtain ⟨more, hmore, element, helement, hread⟩ := valueOver_object h
    obtain rfl := Option.some.inj helement
    exact ⟨more, below, hmore, rfl, hread⟩

/-- A document that is an object opens with a brace. -/
lemma value_of_parse_object {text : Text} {m : Entries Json} (h : parse limit text = .ok (.object m)) :
    ∃ more rest below, CodePoint.ofChar '\x7b' :: more <:+ text ∧
      objectRest (value below) more = .ok (.object m, rest) := by
  obtain ⟨rest, hvalue, -⟩ := value_of_parse h
  obtain ⟨more, below, hmore, -, hread⟩ := value_object hvalue
  exact ⟨more, rest, below, hmore ▸ List.dropWhile_suffix _, hread⟩

lemma isBlank_of_parse_object {text : Text} {m : Entries Json}
    (h : parse limit text = .ok (.object m)) : text.isBlank = false := by
  obtain ⟨more, -, -, hmore, -⟩ := value_of_parse_object h
  have hbrace : CodePoint.ofChar '\x7b' ∈ text := hmore.subset List.mem_cons_self
  by_contra hblank
  have hall : text.isBlank = true := by simpa using hblank
  rw [Text.isBlank, List.all_eq_true] at hall
  exact absurd (hall _ hbrace) (by decide)

/-- Each value of an object was read on its own. -/
lemma members_of_objectRest {element : Text → Reading Json} {here rest : Text} {m : Entries Json}
    (h : objectRest element here = .ok (.object m, rest)) :
    (Entries.keys m).Nodup ∧ ∀ member ∈ m, ∃ start behind, element start = .ok (member.2, behind) := by
  rw [objectRest] at h
  split_ifs at h
  · obtain ⟨hm, -⟩ := Prod.mk.inj (Except.ok.inj h)
    obtain rfl := Json.object.inj hm
    exact ⟨List.nodup_nil, by simp⟩
  · obtain ⟨⟨pairs, last⟩, hpairs, h⟩ := map_eq_ok h
    obtain ⟨hm, -⟩ := Prod.mk.inj h
    obtain rfl := Json.object.inj hm
    refine ⟨Entries.nodup_keys_ofList pairs, fun member hmember => ?_⟩
    obtain ⟨_, behind, _, _, colon, -, -, -, hvalue⟩ :=
      (listed_of_members hpairs).of_mem member (Entries.mem_of_mem_ofList hmember)
    exact ⟨skipBlanks colon, behind, hvalue⟩

/-- The names of an object are distinct, and so are those of the objects right inside. -/
theorem nodup_keys_of_parse {text : Text} {m : Entries Json} (h : parse limit text = .ok (.object m)) :
    (Entries.keys m).Nodup ∧
      ∀ name inner, (name, .object inner) ∈ m → (Entries.keys inner).Nodup := by
  obtain ⟨more, rest, below, -, hread⟩ := value_of_parse_object h
  obtain ⟨hnames, hvalues⟩ := members_of_objectRest hread
  refine ⟨hnames, fun name inner hinner => ?_⟩
  obtain ⟨start, behind, hvalue⟩ := hvalues _ hinner
  obtain ⟨_, _, -, -, hobject⟩ := value_object hvalue
  exact (members_of_objectRest hobject).1

end CommandWrap.Json

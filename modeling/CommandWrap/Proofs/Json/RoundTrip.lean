import Mathlib
import CommandWrap.Proofs.Json.NumberText
import CommandWrap.Proofs.Json.StringText

/-! What is written reads back as the value it was written for, provided a document can hold that
value at all. -/
namespace CommandWrap.Json

/-- The first sign of a value: visible, no blank and no closing sign. -/
def Opens (t : Text) : Prop :=
  ∃ c more, t = c :: more ∧ c.IsVisible ∧ isBlank c = false ∧ c ≠ CodePoint.ofChar ']' ∧
    c ≠ CodePoint.ofChar '\x7d'

lemma skipBlanks_opens {t : Text} (ht : Opens t) (rest : Text) :
    skipBlanks (t ++ rest) = t ++ rest := by
  obtain ⟨c, more, rfl, -, hc, -⟩ := ht
  rw [skipBlanks, List.cons_append, List.dropWhile_cons_of_neg (by simp [hc])]

lemma skipBlanks_space (rest : Text) :
    skipBlanks (CodePoint.ofChar ' ' :: rest) = skipBlanks rest := rfl

lemma opens_ofInt (n : Int) : Opens (Text.ofInt n) := by
  obtain ⟨negative, d, digits, h, hd⟩ := ofInt_head n
  rw [h]
  cases negative with
  | true => exact ⟨_, _, rfl, by decide, by decide, by decide, by decide⟩
  | false =>
    refine ⟨d, digits, rfl, ?_, ?_, ?_, ?_⟩
    · simp only [CodePoint.isDigit, Bool.and_eq_true, decide_eq_true_eq] at hd
      simp only [CodePoint.IsVisible]
      omega
    · by_contra hb
      simp only [Bool.not_eq_false, isBlank, Bool.or_eq_true, decide_eq_true_eq] at hb
      rcases hb with ((rfl | rfl) | rfl) | rfl <;> revert hd <;> decide
    · rintro rfl
      revert hd
      decide
    · rintro rfl
      revert hd
      decide

lemma opens_render {v : Json} (hv : IsExact v) : Opens (render v) := by
  match v with
  | .null => exact ⟨_, _, rfl, by decide, by decide, by decide, by decide⟩
  | .bool true => exact ⟨_, _, rfl, by decide, by decide, by decide, by decide⟩
  | .bool false => exact ⟨_, _, rfl, by decide, by decide, by decide, by decide⟩
  | .int n => exact opens_ofInt n
  | .float (.finite ..) => exact hv.elim
  | .float (.infinite true) => exact ⟨_, _, rfl, by decide, by decide, by decide, by decide⟩
  | .float (.infinite false) => exact ⟨_, _, rfl, by decide, by decide, by decide, by decide⟩
  | .float .nan => exact ⟨_, _, rfl, by decide, by decide, by decide, by decide⟩
  | .string t => exact ⟨_, _, rfl, by decide, by decide, by decide, by decide⟩
  | .array items => exact ⟨_, _, rfl, by decide, by decide, by decide, by decide⟩
  | .object members => exact ⟨_, _, rfl, by decide, by decide, by decide, by decide⟩

/-- The reader gets the value back in front of anything that closes it. -/
def Rereads (element : Text → Reading Json) (v : Json) : Prop :=
  Opens (render v) ∧ ∀ rest, Closes rest → element (render v ++ rest) = .ok (v, rest)

lemma renderItems_cons (item next : Json) (more : List Json) :
    renderItems (item :: next :: more) = render item ++ ", " ++ renderItems (next :: more) := by
  rw [renderItems]
  simp

lemma opens_append {t : Text} (ht : Opens t) (rest : Text) : Opens (t ++ rest) := by
  obtain ⟨c, more, rfl, h⟩ := ht
  exact ⟨c, more ++ rest, rfl, h⟩

lemma opens_renderItems {element : Text → Reading Json} {list : List Json} (hne : list ≠ [])
    (h : ∀ item ∈ list, Rereads element item) : Opens (renderItems list) := by
  cases list with
  | nil => exact absurd rfl hne
  | cons item more =>
    have hitem := (h item List.mem_cons_self).1
    cases more with
    | nil => rwa [renderItems]
    | cons next more =>
      rw [renderItems_cons, List.append_assoc]
      exact opens_append hitem _

lemma items_render {element : Text → Reading Json} {list : List Json} (hne : list ≠ [])
    (h : ∀ item ∈ list, Rereads element item) {fuel : Nat} (hfuel : list.length ≤ fuel)
    (rest : Text) :
    items element fuel (renderItems list ++ CodePoint.ofChar ']' :: rest) = .ok (list, rest) := by
  induction list generalizing fuel with
  | nil => exact absurd rfl hne
  | cons item more ih =>
    obtain ⟨fuel, rfl⟩ : ∃ n, fuel = n + 1 := ⟨fuel - 1, by simp at hfuel; omega⟩
    have hitem := (h item List.mem_cons_self).2
    cases more with
    | nil =>
      rw [renderItems, items, hitem _ (closes_bracket rest)]
      rfl
    | cons next more =>
      have hmore : ∀ v ∈ next :: more, Rereads element v :=
        fun v hv => h v (List.mem_cons_of_mem _ hv)
      have hlist : renderItems (item :: next :: more) ++ CodePoint.ofChar ']' :: rest =
          render item ++ CodePoint.ofChar ',' :: CodePoint.ofChar ' ' ::
            (renderItems (next :: more) ++ CodePoint.ofChar ']' :: rest) := by
        rw [renderItems_cons]
        simp [Text.ofString]
      have hrest : skipBlanks (CodePoint.ofChar ' ' ::
          (renderItems (next :: more) ++ CodePoint.ofChar ']' :: rest)) =
          renderItems (next :: more) ++ CodePoint.ofChar ']' :: rest := by
        rw [skipBlanks_space, skipBlanks_opens (opens_renderItems (by simp) hmore)]
      rw [hlist, items, hitem _ (closes_comma _)]
      dsimp only [Except.bind]
      have hskip : ∀ t : Text, skipBlanks (CodePoint.ofChar ',' :: t) = CodePoint.ofChar ',' :: t :=
        fun _ => rfl
      rw [hskip]
      rw [if_neg (by simp; decide)]
      simp only [after, if_true]
      rw [hrest, ih (by simp) hmore (by simpa using hfuel)]
      rfl

def memberText (member : Text × Json) : Text := stringText member.1 ++ ": " ++ render member.2

lemma renderMembers_cons (member next : Text × Json) (more : List (Text × Json)) :
    renderMembers (member :: next :: more) =
      memberText member ++ ", " ++ renderMembers (next :: more) := by
  obtain ⟨name, value⟩ := member
  rw [renderMembers, memberText]
  simp

lemma renderMembers_singleton (member : Text × Json) :
    renderMembers [member] = memberText member := by
  obtain ⟨name, value⟩ := member
  rw [renderMembers, memberText]

lemma opens_renderMembers {list : List (Text × Json)} (hne : list ≠ []) :
    Opens (renderMembers list) := by
  cases list with
  | nil => exact absurd rfl hne
  | cons member more =>
    have hmember : Opens (memberText member) := ⟨_, _, rfl, by decide, by decide, by decide, by decide⟩
    cases more with
    | nil => rwa [renderMembers_singleton]
    | cons next more =>
      rw [renderMembers_cons, List.append_assoc]
      exact opens_append hmember _

lemma members_head {element : Text → Reading Json} {name : Text} {value : Json}
    (hname : name.Joined) (hvalue : Rereads element value) (fuel : Nat) {rest : Text}
    (hr : Closes rest) :
    members element (fuel + 1) (memberText (name, value) ++ rest) =
      let here := skipBlanks rest
      if here.head? = some (CodePoint.ofChar '\x7d') then .ok ([(name, value)], here.drop 1)
      else (after ',' .expectingComma here).bind fun rest =>
        (members element fuel (skipBlanks rest)).map fun (more, rest) =>
          ((name, value) :: more, rest) := by
  have htext : memberText (name, value) ++ rest = CodePoint.ofChar '"' :: (name.flatMap escaped ++
      CodePoint.ofChar '"' :: CodePoint.ofChar ':' :: CodePoint.ofChar ' ' ::
        (render value ++ rest)) := by
    simp [memberText, stringText, Text.ofString]
  have hskip : ∀ t : Text, skipBlanks (CodePoint.ofChar ':' :: t) = CodePoint.ofChar ':' :: t :=
    fun _ => rfl
  rw [htext, members]
  simp only [after, if_true, Except.bind]
  rw [stringRest_stringText hname]
  dsimp only
  rw [hskip]
  simp only [if_true]
  rw [skipBlanks_space, skipBlanks_opens hvalue.1, hvalue.2 rest hr]
  rfl

lemma members_render {element : Text → Reading Json} {list : List (Text × Json)} (hne : list ≠ [])
    (hnames : ∀ member ∈ list, member.1.Joined) (h : ∀ member ∈ list, Rereads element member.2)
    {fuel : Nat} (hfuel : list.length ≤ fuel) (rest : Text) :
    members element fuel (renderMembers list ++ CodePoint.ofChar '\x7d' :: rest) =
      .ok (list, rest) := by
  induction list generalizing fuel with
  | nil => exact absurd rfl hne
  | cons member more ih =>
    obtain ⟨name, value⟩ := member
    obtain ⟨fuel, rfl⟩ : ∃ n, fuel = n + 1 := ⟨fuel - 1, by simp at hfuel; omega⟩
    have hname : name.Joined := hnames _ List.mem_cons_self
    have hvalue : Rereads element value := h _ List.mem_cons_self
    cases more with
    | nil =>
      rw [renderMembers_singleton, members_head hname hvalue fuel (closes_brace rest)]
      rfl
    | cons next more =>
      have hlist : renderMembers ((name, value) :: next :: more) ++ CodePoint.ofChar '\x7d' :: rest =
          memberText (name, value) ++ CodePoint.ofChar ',' :: CodePoint.ofChar ' ' ::
            (renderMembers (next :: more) ++ CodePoint.ofChar '\x7d' :: rest) := by
        rw [renderMembers_cons]
        simp [Text.ofString]
      have hskip : ∀ t : Text, skipBlanks (CodePoint.ofChar ',' :: t) = CodePoint.ofChar ',' :: t :=
        fun _ => rfl
      rw [hlist, members_head hname hvalue fuel (closes_comma _), hskip]
      dsimp only
      rw [if_neg (by simp; decide)]
      simp only [after, if_true, Except.bind]
      rw [skipBlanks_space, skipBlanks_opens (opens_renderMembers (by simp)),
        ih (by simp) (fun m hm => hnames m (List.mem_cons_of_mem _ hm))
          (fun m hm => h m (List.mem_cons_of_mem _ hm)) (by simpa using hfuel)]
      rfl

lemma one_le_length_render_of_opens {t : Text} (h : Opens t) : 1 ≤ t.length := by
  obtain ⟨c, more, rfl, -⟩ := h
  simp

lemma length_le_renderItems {element : Text → Reading Json} {list : List Json}
    (h : ∀ item ∈ list, Rereads element item) : list.length ≤ (renderItems list).length := by
  induction list with
  | nil => simp
  | cons item more ih =>
    have hitem := one_le_length_render_of_opens (h item List.mem_cons_self).1
    cases more with
    | nil => simpa [renderItems] using hitem
    | cons next more =>
      have := ih fun v hv => h v (List.mem_cons_of_mem _ hv)
      rw [renderItems_cons]
      simp only [List.length_cons, List.length_append] at this ⊢
      omega

lemma length_le_renderMembers (list : List (Text × Json)) :
    list.length ≤ (renderMembers list).length := by
  induction list with
  | nil => simp
  | cons member more ih =>
    have hmember : 1 ≤ (memberText member).length := by simp [memberText, stringText, Text.ofString]
    cases more with
    | nil => simpa [renderMembers_singleton] using hmember
    | cons next more =>
      rw [renderMembers_cons]
      simp only [List.length_cons, List.length_append] at ih ⊢
      omega

lemma valueOver_scalar (inside : Option (Text → Reading Json)) {c : CodePoint} (t : Text)
    (hquote : c ≠ CodePoint.ofChar '"') (hbracket : c ≠ CodePoint.ofChar '[')
    (hbrace : c ≠ CodePoint.ofChar '\x7b') : valueOver inside (c :: t) = scalar (c :: t) := by
  rw [valueOver.eq_def]
  dsimp only
  rw [if_neg hquote, if_neg hbracket, if_neg hbrace]

lemma valueOver_ofInt (inside : Option (Text → Reading Json)) {n : Int}
    (hn : (Text.ofNat n.natAbs).length ≤ maxIntegerDigits) {rest : Text} (hr : Closes rest) :
    valueOver inside (Text.ofInt n ++ rest) = .ok (.int n, rest) := by
  rw [← scalar_ofInt hn hr]
  obtain ⟨negative, d, digits, h, hd⟩ := ofInt_head n
  have hd' : ∀ c : CodePoint, c.isDigit = false → d ≠ c := by
    rintro c hc rfl
    simp [hc] at hd
  rw [h, List.append_assoc]
  cases negative with
  | true => exact valueOver_scalar inside _ (by decide) (by decide) (by decide)
  | false =>
    exact valueOver_scalar inside _ (hd' _ (by decide)) (hd' _ (by decide)) (hd' _ (by decide))

lemma valueOver_word (inside : Option (Text → Reading Json)) {word : Text} {v : Json}
    (h : (word, v) ∈ wordValues) (rest : Text) :
    valueOver inside (word ++ rest) = .ok (v, rest) := by
  rw [← scalar_word h rest]
  simp only [wordValues, List.mem_cons, List.not_mem_nil, or_false, Prod.mk.injEq] at h
  rcases h with ⟨rfl, -⟩ | ⟨rfl, -⟩ | ⟨rfl, -⟩ | ⟨rfl, -⟩ | ⟨rfl, -⟩ | ⟨rfl, -⟩ <;>
    exact valueOver_scalar inside _ (by decide) (by decide) (by decide)

lemma valueOver_string (inside : Option (Text → Reading Json)) {t : Text} (ht : t.Joined)
    (rest : Text) : valueOver inside (stringText t ++ rest) = .ok (.string t, rest) := by
  have htext : stringText t ++ rest = CodePoint.ofChar '"' ::
      (t.flatMap escaped ++ CodePoint.ofChar '"' :: rest) := by
    simp [stringText, Text.ofString]
  rw [htext, valueOver.eq_def]
  dsimp only
  rw [if_pos rfl, stringRest_stringText ht]
  rfl

lemma valueOver_items {element : Text → Reading Json} {list : List Json}
    (h : ∀ item ∈ list, Rereads element item) (rest : Text) :
    valueOver (some element) (render (.array list) ++ rest) = .ok (.array list, rest) := by
  have htext : render (.array list) ++ rest = CodePoint.ofChar '[' ::
      (renderItems list ++ CodePoint.ofChar ']' :: rest) := by
    simp [render, Text.ofString]
  rw [htext, valueOver.eq_def]
  dsimp only
  rw [if_neg (by decide), if_pos rfl]
  rw [arrayRest]
  by_cases hne : list = []
  · subst hne
    rfl
  · obtain ⟨c, more, hc, hopens⟩ := opens_renderItems hne h
    have hlength := length_le_renderItems h
    rw [skipBlanks_opens ⟨c, more, hc, hopens⟩, items_render hne h
      (by rw [List.length_append]; omega)]
    dsimp only
    rw [if_neg (by rw [hc]; simpa using hopens.2.2.1)]
    rfl

lemma valueOver_members {element : Text → Reading Json} {list : List (Text × Json)}
    (hkeys : (Entries.keys list).Nodup) (hnames : ∀ member ∈ list, member.1.Joined)
    (h : ∀ member ∈ list, Rereads element member.2) (rest : Text) :
    valueOver (some element) (render (.object list) ++ rest) = .ok (.object list, rest) := by
  have htext : render (.object list) ++ rest = CodePoint.ofChar '\x7b' ::
      (renderMembers list ++ CodePoint.ofChar '\x7d' :: rest) := by
    simp [render, Text.ofString]
  rw [htext, valueOver.eq_def]
  dsimp only
  rw [if_neg (by decide), if_neg (by decide), if_pos rfl]
  rw [objectRest]
  by_cases hne : list = []
  · subst hne
    rfl
  · obtain ⟨c, more, hc, hopens⟩ := opens_renderMembers hne
    have hlength := length_le_renderMembers list
    rw [skipBlanks_opens ⟨c, more, hc, hopens⟩, members_render hne hnames h
      (by rw [List.length_append]; omega)]
    dsimp only
    rw [if_neg (by rw [hc]; simpa using hopens.2.2.2)]
    simp only [Except.map, Entries.ofList_of_nodup hkeys]

lemma valueOver_leaf (inside : Option (Text → Reading Json)) {u : Json} (hread : IsReadable u)
    (hexact : IsExact u) (hdepth : u.depth = 0) {rest : Text} (hr : Closes rest) :
    valueOver inside (render u ++ rest) = .ok (u, rest) := by
  have hword : ∀ v, (render v, v) ∈ wordValues →
      valueOver inside (render v ++ rest) = .ok (v, rest) :=
    fun v hv => valueOver_word inside hv rest
  match u with
  | .null => exact hword _ (by simp [wordValues, render])
  | .bool true => exact hword _ (by simp [wordValues, render])
  | .bool false => exact hword _ (by simp [wordValues, render])
  | .int n => exact valueOver_ofInt inside hread hr
  | .float (.finite ..) => exact hexact.elim
  | .float (.infinite true) => exact hword _ (by simp [wordValues, render, floatText])
  | .float (.infinite false) => exact hword _ (by simp [wordValues, render, floatText])
  | .float .nan => exact hword _ (by simp [wordValues, render, floatText])
  | .string t => exact valueOver_string inside hread rest
  | .array items => simp [depth] at hdepth
  | .object members => simp [depth] at hdepth

/-- A value is read back from its text. -/
theorem value_render {d : Nat} {v : Json} (hdepth : v.depth ≤ d)
    (hv : Throughout (fun u => IsReadable u ∧ IsExact u) v) {rest : Text} (hr : Closes rest) :
    value d (render v ++ rest) = .ok (v, rest) := by
  have hleaf : ∀ inside, v.depth = 0 → valueOver inside (render v ++ rest) = .ok (v, rest) :=
    fun inside h0 => valueOver_leaf inside (throughout_self hv).1 (throughout_self hv).2 h0 hr
  induction d generalizing v rest with
  | zero => exact hleaf none (by omega)
  | succ d ih =>
    have hrereads : ∀ u, u.depth ≤ d → Throughout (fun u => IsReadable u ∧ IsExact u) u →
        Rereads (value d) u := by
      intro u hdepth hu
      refine ⟨opens_render (throughout_self hu).2, fun rest hr => ih hdepth hu hr fun inside h0 => ?_⟩
      exact valueOver_leaf inside (throughout_self hu).1 (throughout_self hu).2 h0 hr
    cases v with
    | array list =>
      rw [depth] at hdepth
      refine valueOver_items (fun item hitem => hrereads item ?_ ?_) rest
      · have := depth_le_depthOfItems hitem
        omega
      · exact throughoutItems_iff.mp hv.2 item hitem
    | object list =>
      rw [depth] at hdepth
      obtain ⟨hkeys, hnames⟩ := hv.1.1
      refine valueOver_members hkeys (fun member hmember => ?_)
        (fun member hmember => hrereads member.2 ?_ ?_) rest
      · exact hnames _ (List.mem_map_of_mem hmember)
      · have := depth_le_depthOfMembers hmember
        omega
      · exact throughoutMembers_iff.mp hv.2 member hmember
    | null => exact hleaf _ rfl
    | bool b => exact hleaf _ rfl
    | int n => exact hleaf _ rfl
    | float x => exact hleaf _ rfl
    | string t => exact hleaf _ rfl

/-- What is written as a document reads back as the same value. -/
theorem parse_render {limit : Limit} {v : Json} (hdepth : v.depth ≤ limit.levels)
    (hv : Throughout (fun u => IsReadable u ∧ IsExact u) v) : parse limit (render v) = .ok v := by
  have hopens := opens_render (throughout_self hv).2
  have hvalue := value_render hdepth hv closes_nil
  have hskip := skipBlanks_opens hopens []
  rw [List.append_nil] at hvalue hskip
  have hmark : (render v).head? ≠ some ⟨0xFEFF, by decide⟩ := by
    obtain ⟨c, more, hc, hvisible, -⟩ := hopens
    rw [hc]
    rintro h
    rw [List.head?_cons, Option.some_inj] at h
    subst h
    exact absurd hvisible (by decide)
  rw [parse, parseWithin, document, if_neg hmark, hskip, hvalue]
  rfl

/-! ### Values that read back -/

/-- The value has at most `d` levels, and all that is in it can be written and read. -/
structure IsRereadable (d : Nat) (v : Json) : Prop where
  depth : v.depth ≤ d
  throughout : Throughout (fun u => IsReadable u ∧ IsExact u) v

namespace IsRereadable

variable {d : Nat}

lemma null : IsRereadable d .null := ⟨Nat.zero_le d, trivial, trivial⟩

lemma bool (b : Bool) : IsRereadable d (.bool b) := ⟨Nat.zero_le d, trivial, trivial⟩

lemma string {t : Text} (ht : t.Joined) : IsRereadable d (.string t) := ⟨Nat.zero_le d, ht, trivial⟩

lemma array {list : List Json} (h : ∀ item ∈ list, IsRereadable d item) :
    IsRereadable (d + 1) (.array list) := by
  refine ⟨Nat.succ_le_succ (depthOfItems_le fun item hitem => (h item hitem).depth), ⟨trivial, trivial⟩, ?_⟩
  exact throughoutItems_iff.mpr fun item hitem => (h item hitem).throughout

lemma object {list : Entries Json} (hnames : (Entries.keys list).Nodup)
    (hjoined : ∀ name ∈ Entries.keys list, name.Joined)
    (h : ∀ member ∈ list, IsRereadable d member.2) : IsRereadable (d + 1) (.object list) := by
  refine ⟨Nat.succ_le_succ (depthOfMembers_le fun member hmember => (h member hmember).depth),
    ⟨⟨hnames, hjoined⟩, trivial⟩, ?_⟩
  exact throughoutMembers_iff.mpr fun member hmember => (h member hmember).throughout

/-- What is written of the value reads back as the value. -/
theorem parse_render {limit : Limit} {v : Json} (h : IsRereadable d v) (hd : d ≤ 400) :
    parse limit (render v) = .ok v :=
  Json.parse_render ((h.depth.trans hd).trans limit.plenty) h.throughout

end IsRereadable

end CommandWrap.Json

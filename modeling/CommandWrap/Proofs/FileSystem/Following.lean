import Mathlib
import CommandWrap.FileSystem.Basic

/-! Where paths lead, and what a change of one file leaves as it was. -/
namespace CommandWrap.FileSystem

variable {fs : FileSystem} {through : Bool} {links : Nat} {here place : Place} {name : Text}
  {names rest : List Text}

/-! ### Steps of a path -/

lemma follow_up (hhere : fs.content? here = some .directory) (rest : List Text) :
    fs.follow through links here (".." :: rest) = fs.follow through links here.dropLast rest := by
  rw [follow, hhere]
  rfl

lemma follow_missing (hhere : fs.content? here = some .directory) (hname : name ≠ "..")
    (hlength : byteLength name ≤ maxNameLength) (hthere : fs.content? (here ++ [name]) = none) :
    fs.follow through links here [name] = .ok (here ++ [name]) := by
  rw [follow, hhere]
  dsimp only
  rw [if_neg hname, if_neg (by omega), hthere]
  rfl

lemma follow_link (hhere : fs.content? here = some .directory) (hname : name ≠ "..")
    (hlength : byteLength name ≤ maxNameLength) {target : Text}
    (hthere : fs.content? (here ++ [name]) = some (.link target)) (hrest : ¬ (rest = [] ∧ !through)) :
    fs.follow through (links + 1) here (name :: rest) =
      fs.follow through links (if target.head? = some (CodePoint.ofChar '/') then [] else here)
        (Path.partsOf target ++ rest) := by
  rw [follow, hhere]
  dsimp only
  rw [if_neg hname, if_neg (by omega), hthere]
  dsimp only
  rw [if_neg hrest]
  rfl

lemma follow_into (hhere : fs.content? here = some .directory) (hname : name ≠ "..")
    (hlength : byteLength name ≤ maxNameLength) {content : Content}
    (hthere : fs.content? (here ++ [name]) = some content) (hlink : ∀ target, content ≠ .link target)
    (rest : List Text) :
    fs.follow through links here (name :: rest) = fs.follow through links (here ++ [name]) rest := by
  rw [follow, hhere]
  dsimp only
  rw [if_neg hname, if_neg (by omega), hthere]
  cases content with
  | file bytes => rfl
  | directory => rfl
  | link target => exact absurd rfl (hlink target)

/-- A name in a directory leads to its place there, unless a link stands there. -/
lemma follow_child (h : fs.follow true links here names = .ok place)
    (hplace : fs.content? place = some .directory) (hname : name ≠ "..")
    (hlength : byteLength name ≤ maxNameLength)
    (hlink : ∀ target, fs.content? (place ++ [name]) ≠ some (.link target)) :
    fs.follow true links here (names ++ [name]) = .ok (place ++ [name]) := by
  fun_induction follow fs true links here names with
  | case1 links here =>
    obtain rfl : here = place := by simpa using h
    cases hthere : fs.content? (here ++ [name]) with
    | none => exact follow_missing hplace hname hlength hthere
    | some content =>
      rw [List.nil_append, follow_into hplace hname hlength hthere
        fun target ht => hlink target (ht ▸ hthere), follow]
  | case3 links here rest hhere ih =>
    rw [List.cons_append, follow_up hhere]
    exact ih h
  | case5 links here first hhere hfirst hshort there hthere =>
    obtain rfl : there = place := by simpa using h
    simp [there, hthere] at hplace
  | case7 links here first rest hhere hfirst hshort there target hthere hstop =>
    simp at hstop
  | case9 here first rest hhere hfirst hshort there target hthere hgo links start ih =>
    rw [List.cons_append, follow_link hhere hfirst (by omega) hthere (by simp), ← List.append_assoc]
    exact ih h
  | case10 links here first rest hhere hfirst hshort there content hcontent hthere ih =>
    rw [List.cons_append, follow_into hhere hfirst (by omega) hthere hcontent]
    exact ih h
  | case2 | case4 | case6 | case8 | case11 => simp at h

/-- A path that ends in a name leads through a directory. -/
lemma follow_parent (h : fs.follow true links here (names ++ [name]) = .ok place) (hname : name ≠ "..") :
    ∃ parent, fs.follow true links here names = .ok parent ∧
      fs.content? parent = some .directory ∧ byteLength name ≤ maxNameLength := by
  fun_induction follow fs true links here names with
  | case1 links here =>
    refine ⟨here, rfl, ?_⟩
    rw [List.nil_append, follow] at h
    cases hhere : fs.content? here with
    | none => simp [hhere] at h
    | some content =>
      cases content with
      | file bytes => simp [hhere] at h
      | link target => simp [hhere] at h
      | directory =>
        refine ⟨rfl, ?_⟩
        by_contra hlength
        simp [hhere, hname, not_le.mp hlength] at h
  -- A shorter path that fails makes the longer one fail at the same name.
  | case2 links here first rest hhere =>
    rw [List.cons_append, follow, hhere] at h
    simp at h
  | case3 links here rest hhere ih =>
    rw [List.cons_append, follow_up hhere] at h
    exact ih h
  | case4 links here first rest hhere hfirst hlong =>
    rw [List.cons_append, follow, hhere] at h
    simp [hfirst, hlong] at h
  | case5 links here first hhere hfirst hshort there hthere =>
    rw [List.cons_append, follow, hhere] at h
    simp [hfirst, hshort, there, hthere] at h
  | case6 links here first rest hhere hfirst hshort there hthere hrest =>
    rw [List.cons_append, follow, hhere] at h
    simp [hfirst, hshort, there, hthere] at h
  | case7 links here first rest hhere hfirst hshort there target hthere hstop =>
    simp at hstop
  | case8 here first rest hhere hfirst hshort there target hthere hgo =>
    rw [List.cons_append, follow, hhere] at h
    simp [hfirst, hshort, there, hthere] at h
  | case9 here first rest hhere hfirst hshort there target hthere hgo links start ih =>
    rw [List.cons_append, follow_link hhere hfirst (by omega) hthere (by simp), ← List.append_assoc] at h
    exact ih h
  | case10 links here first rest hhere hfirst hshort there content hcontent hthere ih =>
    rw [List.cons_append, follow_into hhere hfirst (by omega) hthere hcontent] at h
    exact ih h
  | case11 links here first rest content hcontent hhere =>
    rw [List.cons_append, follow, hhere] at h
    cases content with
    | directory => exact absurd rfl hcontent
    | file bytes => simp at h
    | link target => simp at h

/-- A path that leads to a directory also leads somewhere when a link at its end is not followed. -/
lemma follow_last (h : fs.follow true links here names = .ok place)
    (hplace : fs.content? place = some .directory) :
    ∃ last, fs.follow false links here names = .ok last ∧ (fs.content? last).isSome = true := by
  fun_induction follow fs true links here names with
  | case1 links here =>
    obtain rfl : here = place := by simpa using h
    exact ⟨here, by rw [follow], by rw [hplace]; rfl⟩
  | case3 links here rest hhere ih =>
    rw [follow_up hhere]
    exact ih h
  | case5 links here first hhere hfirst hshort there hthere =>
    obtain rfl : there = place := by simpa using h
    simp [there, hthere] at hplace
  | case7 links here first rest hhere hfirst hshort there target hthere hstop =>
    simp at hstop
  | case9 here first rest hhere hfirst hshort there target hthere hgo links start ih =>
    cases rest with
    | nil =>
      refine ⟨there, ?_, by rw [hthere]; rfl⟩
      rw [follow, hhere]
      simp [hfirst, hshort, there, hthere]
    | cons next rest =>
      rw [follow_link hhere hfirst (by omega) hthere (by simp)]
      exact ih h
  | case10 links here first rest hhere hfirst hshort there content hcontent hthere ih =>
    rw [follow_into hhere hfirst (by omega) hthere hcontent]
    exact ih h
  | case2 | case4 | case6 | case8 | case11 => simp at h

/-! ### Changes of one file -/

lemma lookup_map_replace (items : List (Place × Item)) (place other : Place) (item : Item) :
    (items.map fun (p, i) => if p = place then (p, item) else (p, i)).lookup other =
      if other = place then (items.lookup other).map fun _ => item else items.lookup other := by
  induction items with
  | nil => simp
  | cons first items ih =>
    obtain ⟨p, i⟩ := first
    rw [List.map_cons]
    by_cases hp : p = place
    · subst hp
      by_cases ho : other = p
      · simp [ho]
      · simp only [if_true, List.lookup_cons, beq_eq_false_iff_ne.mpr ho, ih]
    · by_cases ho : other = p
      · simp [hp, ho]
      · simp only [if_neg hp, List.lookup_cons, beq_eq_false_iff_ne.mpr ho, ih]

lemma item_put (fs : FileSystem) (place other : Place) (item : Item) :
    (fs.put place item).item? other = if other = place then some item else fs.item? other := by
  cases hplace : fs.item? place with
  | none =>
    rw [put, hplace]
    simp only [item?, Option.isSome_none, Bool.false_eq_true, if_false, List.lookup_append] at hplace ⊢
    by_cases ho : other = place
    · simp [ho, hplace]
    · simp [ho, List.lookup_cons, beq_eq_false_iff_ne.mpr ho]
  | some before =>
    rw [put, hplace]
    simp only [item?, Option.isSome_some, if_true, lookup_map_replace] at hplace ⊢
    by_cases ho : other = place
    · simp [ho, hplace]
    · simp [ho]

lemma content_put (fs : FileSystem) {place : Place} (hplace : place ≠ []) (other : Place) (item : Item) :
    (fs.put place item).content? other =
      if other = place then some item.content else fs.content? other := by
  by_cases ho : other = place
  · rw [content?, ho, if_neg hplace, item_put, if_pos rfl, if_pos rfl, Option.map_some]
  · rw [content?, content?, item_put, if_neg ho, if_neg ho]

end CommandWrap.FileSystem

import Mathlib
import CommandWrap.Json.Basic

/-! Tables of entries: an insertion keeps the other entries and the order of the keys. -/
namespace CommandWrap.Entries

variable {α : Type}

def keys (entries : Entries α) : List Text := entries.map (·.1)

@[simp] theorem keys_nil : keys ([] : Entries α) = [] := rfl

@[simp] theorem keys_cons (e : Text × α) (entries : Entries α) :
    keys (e :: entries) = e.1 :: keys entries := rfl

theorem insert_of_notMem {key : Text} {entries : Entries α} (h : key ∉ keys entries) (value : α) :
    insert key value entries = entries ++ [(key, value)] := by
  induction entries with
  | nil => rfl
  | cons e entries ih =>
    simp only [keys_cons, List.mem_cons, not_or] at h
    rw [insert, if_neg (Ne.symm h.1), ih h.2, List.cons_append]

theorem keys_insert_of_mem {key : Text} {entries : Entries α} (h : key ∈ keys entries) (value : α) :
    keys (insert key value entries) = keys entries := by
  induction entries with
  | nil => simp at h
  | cons e entries ih =>
    rw [insert]
    split_ifs with he
    · rfl
    · simp only [keys_cons, List.mem_cons] at h
      rw [keys_cons, keys_cons, ih (h.resolve_left (Ne.symm he))]

theorem nodup_keys_insert {entries : Entries α} (h : (keys entries).Nodup) (key : Text) (value : α) :
    (keys (insert key value entries)).Nodup := by
  by_cases hk : key ∈ keys entries
  · rwa [keys_insert_of_mem hk]
  · rw [insert_of_notMem hk, keys, List.map_append]
    exact List.Nodup.append h (by simp) (List.disjoint_singleton.mpr hk)

theorem mem_insert {key : Text} {value : α} {entries : Entries α} {e : Text × α}
    (he : e ∈ insert key value entries) : e = (key, value) ∨ e ∈ entries := by
  induction entries with
  | nil => simpa [insert] using he
  | cons first entries ih =>
    rw [insert] at he
    split_ifs at he with hk
    · rcases List.mem_cons.mp he with rfl | he
      · exact .inl (by rw [hk])
      · exact .inr (List.mem_cons_of_mem _ he)
    · rcases List.mem_cons.mp he with rfl | he
      · exact .inr (by simp)
      · exact (ih he).imp_right (List.mem_cons_of_mem _)

/-- The later of two insertions under one key counts. -/
theorem insert_insert (key : Text) (first second : α) (entries : Entries α) :
    insert key second (insert key first entries) = insert key second entries := by
  induction entries with
  | nil => simp [insert]
  | cons e entries ih =>
    by_cases he : e.1 = key
    · simp [insert, he]
    · simp [insert, he, ih]

/-- Under a key that is there, an insertion only replaces the value. -/
theorem insert_eq_map {key : Text} {entries : Entries α} (hn : (keys entries).Nodup)
    (h : key ∈ keys entries) (value : α) :
    insert key value entries = entries.map fun e => (e.1, if e.1 = key then value else e.2) := by
  induction entries with
  | nil => simp at h
  | cons e entries ih =>
    simp only [keys_cons, List.nodup_cons] at hn
    rw [insert, List.map_cons]
    split_ifs with he
    · have hk : ∀ f ∈ entries, f.1 ≠ key := fun f hf hfk =>
        hn.1 (he ▸ hfk ▸ List.mem_map_of_mem hf)
      rw [List.map_congr_left (g := id) fun f hf => by simp [hk f hf], List.map_id]
    · rw [ih hn.2 ((List.mem_cons.mp h).resolve_left (Ne.symm he))]

lemma foldl_insert (acc : Entries α) {pairs : Entries α} (h : (keys (acc ++ pairs)).Nodup) :
    pairs.foldl (fun entries (key, value) => insert key value entries) acc = acc ++ pairs := by
  induction pairs generalizing acc with
  | nil => simp
  | cons e pairs ih =>
    have hk : e.1 ∉ keys acc := by
      intro hm
      rw [keys, List.map_append, List.nodup_append] at h
      exact h.2.2 e.1 hm e.1 (by simp) rfl
    have hi : insert e.1 e.2 acc = acc ++ [e] := insert_of_notMem hk e.2
    rw [List.foldl_cons]
    change pairs.foldl _ (insert e.1 e.2 acc) = _
    rw [hi, ih _ (by simpa using h), List.append_assoc]
    rfl

theorem ofList_of_nodup {pairs : Entries α} (h : (keys pairs).Nodup) : ofList pairs = pairs :=
  foldl_insert [] h

lemma nodup_keys_foldl (acc : Entries α) (h : (keys acc).Nodup) (pairs : List (Text × α)) :
    (keys (pairs.foldl (fun entries (key, value) => insert key value entries) acc)).Nodup := by
  induction pairs generalizing acc with
  | nil => exact h
  | cons e pairs ih => exact ih _ (nodup_keys_insert h e.1 e.2)

theorem nodup_keys_ofList (pairs : List (Text × α)) : (keys (ofList pairs)).Nodup :=
  nodup_keys_foldl [] List.nodup_nil pairs

lemma mem_foldl_insert {acc : Entries α} {pairs : List (Text × α)} {e : Text × α}
    (he : e ∈ pairs.foldl (fun entries (key, value) => insert key value entries) acc) :
    e ∈ acc ∨ e ∈ pairs := by
  induction pairs generalizing acc with
  | nil => exact .inl he
  | cons first pairs ih =>
    rcases ih he with hi | hi
    · exact (mem_insert hi).elim (fun h => .inr (by simp [h])) .inl
    · exact .inr (List.mem_cons_of_mem _ hi)

theorem mem_of_mem_ofList {pairs : List (Text × α)} {e : Text × α} (he : e ∈ ofList pairs) :
    e ∈ pairs := (mem_foldl_insert he).resolve_left (by simp)

/-! ### Look-up -/

theorem mem_of_get? {key : Text} {value : α} {entries : Entries α} (h : entries.get? key = some value) :
    (key, value) ∈ entries := by
  induction entries with
  | nil => simp [get?] at h
  | cons e entries ih =>
    rw [get?, List.lookup_cons] at h
    split at h
    · next he =>
      rw [beq_iff_eq] at he
      obtain rfl : e.2 = value := by simpa using h
      exact List.mem_cons.mpr (.inl (by rw [he]))
    · exact List.mem_cons_of_mem _ (ih h)

lemma get?_eq_none_iff {key : Text} {entries : Entries α} :
    entries.get? key = none ↔ key ∉ keys entries := by
  simp only [get?, List.lookup_eq_none_iff, bne_iff_ne, keys, List.mem_map, not_exists, not_and]
  exact forall₂_congr fun _ _ => not_congr eq_comm

lemma hasKey_iff {key : Text} {entries : Entries α} : entries.hasKey key = true ↔ key ∈ keys entries := by
  rw [hasKey, Option.isSome_iff_ne_none, Ne, get?_eq_none_iff, not_not]

lemma get?_cons (e : Text × α) (entries : Entries α) (key : Text) :
    get? key (e :: entries) = if key = e.1 then some e.2 else get? key entries := by
  unfold get?
  rw [List.lookup_cons]
  by_cases h : key = e.1
  · simp [h]
  · have hne : (key == e.1) = false := beq_eq_false_iff_ne.mpr h
    rw [hne, if_neg h]

/-- Under distinct keys, every entry is found. -/
theorem get?_of_mem {key : Text} {value : α} {entries : Entries α} (hn : (keys entries).Nodup)
    (h : (key, value) ∈ entries) : entries.get? key = some value := by
  induction entries with
  | nil => cases h
  | cons e entries ih =>
    rw [keys_cons, List.nodup_cons] at hn
    rw [get?_cons]
    rcases List.mem_cons.mp h with rfl | h
    · exact if_pos rfl
    · have hne : key ≠ e.1 := fun hkey => hn.1 (List.mem_map.mpr ⟨_, h, hkey⟩)
      rw [if_neg hne, ih hn.2 h]

/-- What is inserted is found under its key, and what else is there under its own. -/
theorem get?_insert (key other : Text) (value : α) (entries : Entries α) :
    get? other (insert key value entries) =
      if other = key then some value else get? other entries := by
  induction entries with
  | nil => exact get?_cons (key, value) [] other
  | cons e entries ih =>
    unfold insert
    by_cases he : e.1 = key
    · rw [if_pos he, get?_cons, get?_cons]
      by_cases h : other = key
      · simp [h, he]
      · simp [h, he]
    · rw [if_neg he, get?_cons, get?_cons, ih]
      by_cases h : other = e.1
      · simp [h, he]
      · simp [h]

/-- Under distinct keys, what a key leads to is kept or dropped by itself. -/
theorem get?_filterMap {β : Type} {entries : Entries α} (hn : (keys entries).Nodup)
    (keep : Text → α → Option β) (key : Text) :
    get? key (entries.filterMap fun (name, value) => (keep name value).map fun kept => (name, kept)) =
      (get? key entries).bind (keep key) := by
  induction entries with
  | nil => rfl
  | cons e entries ih =>
    obtain ⟨name, value⟩ := e
    rw [keys_cons, List.nodup_cons] at hn
    have hmore := ih hn.2
    rw [get?_cons]
    cases hkeep : keep name value with
    | none =>
      rw [List.filterMap_cons_none (by simp [hkeep]), hmore]
      by_cases hkey : key = name
      · subst hkey
        simp [get?_eq_none_iff.mpr hn.1, hkeep]
      · rw [if_neg hkey]
    | some kept =>
      rw [List.filterMap_cons_some (b := (name, kept)) (by simp [hkeep]), get?_cons]
      by_cases hkey : key = name
      · subst hkey
        simp [hkeep]
      · rw [if_neg hkey, if_neg hkey, hmore]

end CommandWrap.Entries

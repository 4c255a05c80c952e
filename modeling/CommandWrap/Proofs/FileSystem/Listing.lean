import Mathlib
import CommandWrap.Proofs.FileSystem.Growth

/-! The names in a directory, and file systems that hold the same but may have changed at other times. -/
namespace CommandWrap.FileSystem

variable {fs before after : FileSystem} {p : Path} {name : Text} {place : Place}

/-! ### Names in a directory -/

lemma isSome_content_append : (fs.content? (place ++ [name])).isSome = true ↔
    ∃ item, (place ++ [name], item) ∈ fs.items := by
  rw [content?, if_neg (by simp), Option.isSome_map, item?, List.lookup_isSome_iff]
  constructor
  · rintro ⟨⟨found, item⟩, hmem, hfound⟩
    obtain rfl := eq_of_beq hfound
    exact ⟨item, hmem⟩
  · rintro ⟨item, hmem⟩
    exact ⟨_, hmem, beq_self_eq_true _⟩

lemma mem_namesIn_iff : name ∈ fs.namesIn place ↔ (fs.content? (place ++ [name])).isSome = true := by
  rw [isSome_content_append]
  simp only [namesIn, List.mem_map, List.mem_filter, Bool.and_eq_true, decide_eq_true_eq, Prod.exists]
  constructor
  · rintro ⟨found, item, ⟨hmem, hdirectory, hne⟩, hname⟩
    have hsplit : found = place ++ [name] := by
      rw [← hdirectory, ← hname, List.getLastD_eq_getLast?, List.getLast?_eq_some_getLast hne,
        Option.getD_some, List.dropLast_append_getLast]
    exact ⟨item, hsplit ▸ hmem⟩
  · rintro ⟨item, hmem⟩
    exact ⟨_, item, ⟨hmem, List.dropLast_concat, by simp⟩, by simp⟩

/-! ### Paths that can be looked up -/

lemma byteLength_append (s t : Text) : byteLength (s ++ t) = byteLength s + byteLength t := by
  have hstart : ∀ (t : Text) (n : Nat), t.foldl
      (fun n c => n + if Utf8.isStrayByte c then 1 else (Utf8.encodeCodePoint c).length) n = n + byteLength t := by
    intro t
    induction t with
    | nil => exact fun _ => rfl
    | cons c t ih =>
      intro n
      rw [byteLength, List.foldl_cons, List.foldl_cons, ih, ih]
      omega
  rw [byteLength, List.foldl_append, hstart]
  rfl

/-- The text of a path is the beginning of that of any path below it. -/
lemma toText_isPrefix_child (p : Path) (name : Text) :
    p.toText = Text.ofString "." ∨ p.toText <+: (p.child name).toText := by
  rw [toText_child]
  rcases List.eq_nil_or_concat p.parts with hparts | ⟨front, last, hparts⟩
  · by_cases hslashes : p.slashes = 0
    · exact .inl (by rw [Path.toText, if_pos ⟨hslashes, hparts⟩])
    · right
      rw [Path.toText, if_neg fun h => hslashes h.1, stemText, hparts, List.append_assoc,
        List.prefix_append_right_inj]
      exact List.nil_prefix
  · right
    rw [Path.toText, if_neg (by simp [hparts]), stemText, List.append_assoc,
      List.prefix_append_right_inj, hparts, List.concat_eq_append, join_append_singleton,
      List.flatMap_append, List.flatMap_singleton]
    exact ⟨Text.ofString "/" ++ name, by simp⟩

/-- A directory can be looked up if something in it can. -/
lemma checkPath_of_child (h : checkPath (p.child name) = .ok ()) : checkPath p = .ok () := by
  rw [checkPath_eq_ok_iff, Utf8.encodeError_eq_none_iff] at h ⊢
  obtain ⟨hflaw, hnull, hlength⟩ := h
  rcases toText_isPrefix_child p name with hdot | ⟨behind, hbehind⟩
  · rw [hdot]
    decide
  · rw [← hbehind] at hflaw hnull hlength
    rw [byteLength_append] at hlength
    exact ⟨fun c hc => hflaw c (List.mem_append_left _ hc), fun c hc => hnull c (List.mem_append_left _ hc),
      by omega⟩

lemma locate_of_isDirectoryAt (h : fs.IsDirectoryAt p place) (hcheck : checkPath p = .ok ()) :
    fs.locate true p = .ok place := by
  rw [locate, hcheck, Except.bind, h.1]
  rfl

lemma isDirectory_of_isDirectoryAt (h : fs.IsDirectoryAt p place) (hcheck : checkPath p = .ok ()) :
    fs.isDirectory p = .ok true := by
  rw [isDirectory, isAt, contentAt, locate_of_isDirectoryAt h hcheck]
  simp [Except.bind, h.2]

lemma exists_modified (hlocate : fs.locate true p = .ok place) (hfile : fs.HasFile place) :
    ∃ time, fs.modified p = .ok time := by
  have hcontent := hfile.content
  rw [content?, if_neg hfile.isFree.ne_nil] at hcontent
  obtain ⟨item, hitem, -⟩ := Option.map_eq_some_iff.mp hcontent
  rw [modified, hlocate, Except.bind, hitem]
  exact ⟨_, rfl⟩

/-! ### Other times -/

/-- The same stands at every place, though it may have been changed at another time. -/
structure SameButTimes (before after : FileSystem) : Prop where
  current : after.current = before.current
  content : ∀ place, after.content? place = before.content? place

namespace SameButTimes

lemma keeps (h : before.SameButTimes after) : before.Keeps after where
  current := h.current
  directory hplace := (h.content _).trans hplace
  link {place target} := by rw [h.content]

lemma hasFile (h : before.SameButTimes after) (place : Place) :
    after.HasFile place ↔ before.HasFile place := by
  rw [HasFile, HasFile, h.content]

end SameButTimes
end CommandWrap.FileSystem

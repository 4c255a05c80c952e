import Mathlib
import CommandWrap.Proofs.FileSystem.Listing
import CommandWrap.Proofs.Session.Refinement

/-! The session that was written last, in a directory whose session files were made by records: their names
lead back to the sessions, and the one whose file changed last is the latest. -/
namespace CommandWrap

/-! ### The order of names -/

namespace Text

lemma lt_iff {s t : Text} : lt s t = true ↔ s.map CodePoint.val < t.map CodePoint.val := by
  induction s generalizing t with
  | nil => cases t <;> simp [lt]
  | cons c s ih =>
    cases t with
    | nil => simp [lt]
    | cons d t => simp [lt, ih, List.cons_lt_cons_iff]

end Text

namespace Session

open FileSystem

/-! ### Names of files -/

/-- The signs of a file name in front of its extension. -/
def safeSigns : Text := "ABCDEFGHIJKLMNOPQRSTUVWXYZabcdefghijklmnopqrstuvwxyz0123456789_-"

lemma mem_safeSigns_iff {c : CodePoint} : c ∈ safeSigns ↔ isSafe c = true := by
  have hall : ∀ c ∈ safeSigns, isSafe c = true := by decide
  refine ⟨hall c, fun hc => ?_⟩
  have hvisible := isVisible_of_isSafe hc
  have hevery : ∀ n : Fin 0x7F, isSafe (CodePoint.ofNat n) = true → CodePoint.ofNat n ∈ safeSigns := by
    decide +kernel
  have hsame : CodePoint.ofNat (⟨c.val, hvisible.2⟩ : Fin 0x7F) = c := CodePoint.ofNat_val c
  have hmem := hevery ⟨c.val, hvisible.2⟩
  rw [hsame] at hmem
  exact hmem hc

lemma safeId_ne_nil (id : Text) : safeId id ≠ [] := by
  rw [safeId]
  split_ifs with hid
  · decide
  · simpa using hid

lemma isSafe_of_mem_safeId {id : Text} {c : CodePoint} (hc : c ∈ safeId id) : isSafe c = true := by
  rw [safeId] at hc
  split_ifs at hc
  · revert c
    decide
  · obtain ⟨d, -, rfl⟩ := List.mem_map.mp hc
    split_ifs with hd
    · exact hd
    · decide

lemma safeId_safeId (id : Text) : safeId (safeId id) = safeId id := by
  rw [safeId, if_neg (safeId_ne_nil id)]
  exact (List.map_congr_left fun c hc => if_pos (isSafe_of_mem_safeId hc)).trans (List.map_id' _)

/-- Without its extension, the name of a file is the identifier made safe. -/
lemma stemOf_fileName (id : Text) : Path.stemOf (fileName id) = safeId id := by
  have hreverse : (fileName id).reverse =
      Text.ofString "lnosj" ++ CodePoint.ofChar '.' :: (safeId id).reverse := by
    rw [fileName, List.reverse_append]
    rfl
  have hextension : (fileName id).reverse.takeWhile (fun c => c ≠ CodePoint.ofChar '.') =
      Text.ofString "lnosj" := by
    rw [hreverse, List.takeWhile_append_of_pos (by decide), List.takeWhile_cons_of_neg (by decide),
      List.append_nil]
  have hlength : (fileName id).length = (safeId id).length + 6 := List.length_append
  have hextensionLength : (Text.ofString "lnosj").length = 5 := rfl
  have hfront : (fileName id).take ((fileName id).length - (Text.ofString "lnosj").length - 1) =
      safeId id := by
    rw [hlength, hextensionLength, fileName]
    exact List.take_left' (by omega)
  simp only [Path.stemOf, hextension, List.length_reverse, hfront]
  rw [if_neg]
  rintro (hnil | hall | hempty)
  · cases hnil
  · omega
  · exact safeId_ne_nil id hempty

lemma path_eq_path_iff {directory : Path} {a b : Text} :
    path directory a = path directory b ↔ safeId a = safeId b := by
  rw [path_eq, path_eq, ← fileName_inj]
  simp [Path.child]

/-- Files of one name are one session, whatever its identifier. -/
lemma load_congr {directory : Path} {a b : Text} (h : path directory a = path directory b)
    (limit : Json.Limit) (now : Stamp) (files : FileSystem) :
    load limit now directory a files = load limit now directory b files := by
  rw [load, load, h]

/-! ### The newest of some files -/

/-- Files are ranked by the time of their last change, and then by their names. -/
def rank (found : Int × Text) : ℤ ×ₗ List ℕ := toLex (found.1, found.2.map CodePoint.val)

lemma isNewer_iff {a b : Int × Text} : isNewer a b = true ↔ rank b < rank a := by
  rw [rank, rank, Prod.Lex.toLex_lt_toLex, isNewer, Bool.or_eq_true, Bool.and_eq_true, decide_eq_true_eq,
    decide_eq_true_eq, Text.lt_iff]
  exact or_congr_right (and_congr_left' eq_comm)

lemma rank_le_iff {a b : Int × Text} : rank a ≤ rank b ↔
    a.1 < b.1 ∨ a.1 = b.1 ∧ a.2.map CodePoint.val ≤ b.2.map CodePoint.val :=
  Prod.Lex.toLex_le_toLex

/-- The search keeps the file that ranks highest so far. -/
lemma foldl_newer (first : Int × Text) (rest : List (Int × Text)) :
    let best := rest.foldl (fun best c => if isNewer c best then c else best) first
    best ∈ first :: rest ∧ ∀ c ∈ first :: rest, rank c ≤ rank best := by
  induction rest generalizing first with
  | nil => simp
  | cons next rest ih =>
    dsimp only
    rw [List.foldl_cons]
    by_cases hnewer : isNewer next first = true
    · obtain ⟨hmem, hbest⟩ := ih next
      rw [if_pos hnewer]
      refine ⟨List.mem_cons_of_mem _ hmem, List.forall_mem_cons.mpr ⟨?_, hbest⟩⟩
      exact (isNewer_iff.mp hnewer).le.trans (hbest next List.mem_cons_self)
    · obtain ⟨hmem, hbest⟩ := ih first
      obtain ⟨hfirst, hrest⟩ := List.forall_mem_cons.mp hbest
      rw [if_neg hnewer]
      refine ⟨?_, List.forall_mem_cons.mpr ⟨hfirst, List.forall_mem_cons.mpr ⟨?_, hrest⟩⟩⟩
      · rcases List.mem_cons.mp hmem with hmem | hmem
        · exact List.mem_cons.mpr (.inl hmem)
        · exact List.mem_cons_of_mem _ (List.mem_cons_of_mem _ hmem)
      · exact (not_lt.mp (mt isNewer_iff.mpr hnewer)).trans hfirst

lemma newest_spec {found : List (Int × Text)} (h : found ≠ []) :
    ∃ best ∈ found, newest found = some best ∧ ∀ c ∈ found, rank c ≤ rank best := by
  obtain ⟨first, rest, rfl⟩ := List.exists_cons_of_ne_nil h
  obtain ⟨hmem, hbest⟩ := foldl_newer first rest
  exact ⟨_, hmem, rfl, hbest⟩

variable {directory : Path} {files initial made after : FileSystem} {calls done : List Call}
  {place : Place} {ids names : List Text}

/-- Files that can all be looked up are all candidates. -/
lemma candidates_spec (h : ∀ name ∈ names, ∃ time, files.modified (directory.child name) = .ok time) :
    ∃ found, candidates directory files names = .ok found ∧
      ∀ c, c ∈ found ↔ c.2 ∈ names ∧ files.modified (directory.child c.2) = .ok c.1 := by
  induction names with
  | nil => exact ⟨[], rfl, by simp⟩
  | cons name names ih =>
    obtain ⟨⟨time, htime⟩, hnames⟩ := List.forall_mem_cons.mp h
    obtain ⟨found, hfound, hmem⟩ := ih hnames
    refine ⟨(time, name) :: found, by rw [candidates, htime, hfound]; rfl, ?_⟩
    rintro ⟨other, otherName⟩
    rw [List.mem_cons, List.mem_cons, hmem, or_and_right]
    refine or_congr_left ?_
    rw [Prod.mk.injEq]
    dsimp only
    constructor
    · rintro ⟨rfl, rfl⟩
      exact ⟨rfl, htime⟩
    · rintro ⟨rfl, hother⟩
      exact ⟨Except.ok.inj (hother.symm.trans htime), rfl⟩

/-! ### Directories of session files -/

/-- Some call recorded a rewrite in the session, at some time. -/
def IsRecorded (directory : Path) (id : Text) : Prop :=
  ∃ (call : Call) (depth : Nat) (before after : FileSystem), call.id = id ∧ Tally.key call.command ≠ [] ∧
    record call.instant depth directory call.id call.time call.command before = (after, .ok ())

/-- In the directory stand the files of these sessions, all made by records, and nothing else that is named
like a session file. What the files hold is left open, and when they were changed. -/
structure HasSessions (directory : Path) (files : FileSystem) (place : Place) (ids : List Text) : Prop where
  isDirectoryAt : files.IsDirectoryAt directory place
  listed : ∀ name ∈ files.namesIn place, suffix <:+ name → ∃ id ∈ ids, name = fileName id
  hasFile : ∀ id ∈ ids, files.HasFile (place ++ [fileName id])
  recorded : ∀ id ∈ ids, IsRecorded directory id

/-- A file that was recorded to can be looked up. -/
lemma IsRecorded.checked {id : Text} (h : IsRecorded directory id) :
    checkPath (path directory id) = .ok () ∧ byteLength (fileName id) ≤ maxNameLength := by
  obtain ⟨call, depth, before, after, rfl, hkey, hrecord⟩ := h
  rw [record_eq hkey, path_eq] at hrecord
  obtain ⟨-, -, -, hcheck, -, hlength, -⟩ := record_child hrecord (fileName_ne_parent call.id)
  exact ⟨hcheck, hlength⟩

namespace HasSessions

variable {id : Text}

lemma locate (h : HasSessions directory files place ids) (hid : id ∈ ids) :
    files.locate true (path directory id) = .ok (place ++ [fileName id]) :=
  locate_child h.isDirectoryAt (h.recorded id hid).checked.1 (fileName_ne_parent id)
    (h.recorded id hid).checked.2 (h.hasFile id hid).isFree

lemma exists_modified (h : HasSessions directory files place ids) (hid : id ∈ ids) :
    ∃ time, files.modified (path directory id) = .ok time :=
  FileSystem.exists_modified (h.locate hid) (h.hasFile id hid)

/-- Of the names in the directory, those of session files are the ones that the sessions have. -/
lemma mem_names_iff (h : HasSessions directory files place ids) {name : Text} :
    name ∈ (files.namesIn place).filter (fun name => suffix.isSuffixOf name) ↔
      ∃ id ∈ ids, name = fileName id := by
  rw [List.mem_filter, List.isSuffixOf_iff_suffix]
  constructor
  · rintro ⟨hmem, hsuffix⟩
    exact h.listed name hmem hsuffix
  · rintro ⟨id, hid, rfl⟩
    obtain ⟨bytes, hbytes⟩ := h.hasFile id hid
    exact ⟨mem_namesIn_iff.mpr (by rw [hbytes]; rfl), List.suffix_append _ _⟩

/-- One of the sessions ranks highest and is the latest. -/
theorem exists_latest (h : HasSessions directory files place ids) (hids : ids ≠ []) :
    ∃ id ∈ ids, ∃ time, latest directory files = .ok (some (safeId id)) ∧
      files.modified (path directory id) = .ok time ∧
      ∀ other ∈ ids, ∃ otherTime, files.modified (path directory other) = .ok otherTime ∧
        rank (otherTime, fileName other) ≤ rank (time, fileName id) := by
  have hdirectory : checkPath directory = .ok () := by
    obtain ⟨id, rest, rfl⟩ := List.exists_cons_of_ne_nil hids
    exact checkPath_of_child (h.recorded id List.mem_cons_self).checked.1
  have hdated : ∀ name ∈ (files.namesIn place).filter (fun name => suffix.isSuffixOf name),
      ∃ time, files.modified (directory.child name) = .ok time := by
    intro name hname
    obtain ⟨id, hid, rfl⟩ := h.mem_names_iff.mp hname
    exact h.exists_modified hid
  obtain ⟨found, hfound, hmem⟩ := candidates_spec hdated
  have hsession : ∀ c, c ∈ found ↔
      ∃ id ∈ ids, c.2 = fileName id ∧ files.modified (path directory id) = .ok c.1 := by
    intro c
    rw [hmem, h.mem_names_iff]
    constructor
    · rintro ⟨⟨id, hid, hname⟩, htime⟩
      exact ⟨id, hid, hname, by rwa [path_eq, ← hname]⟩
    · rintro ⟨id, hid, hname, htime⟩
      exact ⟨⟨id, hid, hname⟩, by rwa [hname, ← path_eq]⟩
  have hne : found ≠ [] := by
    obtain ⟨id, rest, rfl⟩ := List.exists_cons_of_ne_nil hids
    obtain ⟨time, htime⟩ := h.exists_modified List.mem_cons_self
    exact List.ne_nil_of_mem ((hsession (time, fileName id)).mpr ⟨id, List.mem_cons_self, rfl, htime⟩)
  obtain ⟨⟨time, name⟩, hbest, hnewest, hall⟩ := newest_spec hne
  obtain ⟨id, hid, rfl, htime⟩ := (hsession (time, name)).mp hbest
  refine ⟨id, hid, time, ?_, htime, fun other hother => ?_⟩
  · rw [Session.latest, isDirectory_of_isDirectoryAt h.isDirectoryAt hdirectory,
      locate_of_isDirectoryAt h.isDirectoryAt hdirectory]
    simp only [bind, Except.bind, if_true, hfound, hnewest]
    change Except.ok (some (safeId (Path.stemOf (fileName id)))) = _
    rw [stemOf_fileName, safeId_safeId]
  · obtain ⟨otherTime, hother'⟩ := h.exists_modified hother
    exact ⟨otherTime, hother', hall _ ((hsession _).mpr ⟨other, hother, rfl, hother'⟩)⟩

end HasSessions

/-- One of these sessions, whose file was changed last; if several were, the one whose file has the greatest
name in the order of code points. -/
def IsNewest (directory : Path) (files : FileSystem) (ids : List Text) (id : Text) : Prop :=
  (∃ found ∈ ids, path directory found = path directory id) ∧
  ∃ time, files.modified (path directory id) = .ok time ∧
    ∀ other ∈ ids, ∃ otherTime, files.modified (path directory other) = .ok otherTime ∧
      (otherTime < time ∨ otherTime = time ∧
        (fileName other).map CodePoint.val ≤ (fileName id).map CodePoint.val)

lemma HasSessions.isNewest (h : HasSessions directory files place ids) (hids : ids ≠ []) :
    ∃ id, latest directory files = .ok (some id) ∧ IsNewest directory files ids id := by
  obtain ⟨id, hid, time, hlatest, htime, hbest⟩ := h.exists_latest hids
  have hname : fileName (safeId id) = fileName id := fileName_inj.mpr (safeId_safeId id)
  have hpath : path directory (safeId id) = path directory id := path_eq_path_iff.mpr (safeId_safeId id)
  refine ⟨safeId id, hlatest, ⟨id, hid, hpath.symm⟩, time, hpath ▸ htime, fun other hother => ?_⟩
  obtain ⟨otherTime, hotherTime, hrank⟩ := hbest other hother
  exact ⟨otherTime, hotherTime, hname.symm ▸ rank_le_iff.mp hrank⟩

end Session
end CommandWrap

import Mathlib
import CommandWrap.Proofs.Except
import CommandWrap.Proofs.FileSystem.Recording

/-! File systems that grow: directories and links stay, and files hold what they held and then what was
written to them. -/
namespace CommandWrap.FileSystem

variable {fs before between after : FileSystem} {p : Path} {place : Place} {bytes : Bytes} {now : Int}

/-! ### Files that grow -/

def HasFile (fs : FileSystem) (place : Place) : Prop := ∃ bytes, fs.content? place = some (.file bytes)

lemma HasFile.isFree (h : fs.HasFile place) : fs.IsFree place := by
  obtain ⟨bytes, hbytes⟩ := h
  intro content hcontent
  exact ⟨bytes, Option.some.inj (hcontent.symm.trans hbytes)⟩

lemma HasFile.content (h : fs.HasFile place) : fs.content? place = some (.file (fs.bytesAt place)) := by
  obtain ⟨bytes, hbytes⟩ := h
  rw [bytesAt, hbytes]

lemma locate_of_read (h : fs.read p = .ok bytes) :
    ∃ place, fs.locate true p = .ok place ∧ fs.content? place = some (.file bytes) := by
  obtain ⟨content, hcontent, h⟩ := bind_eq_ok h
  obtain ⟨place, hlocate, hplace⟩ := bind_eq_ok hcontent
  refine ⟨place, hlocate, ?_⟩
  cases hthere : fs.content? place with
  | none => simp [hthere] at hplace
  | some found =>
    obtain rfl : found = content := by simpa [hthere] using hplace
    cases found with
    | file held => rw [Except.ok.inj h]
    | directory => cases h
    | link target => cases h

/-- Bytes for the file at a path; to open it is to write none. -/
abbrev Write := Path × Bytes

/-- What of the writes goes to one place. -/
def writtenAt (fs : FileSystem) (writes : List Write) (place : Place) : Bytes :=
  writes.flatMap fun write => if fs.locate true write.1 = .ok place then write.2 else []

@[simp] lemma writtenAt_nil (fs : FileSystem) (place : Place) : fs.writtenAt [] place = [] := rfl

lemma writtenAt_cons (fs : FileSystem) (write : Write) (writes : List Write) (place : Place) :
    fs.writtenAt (write :: writes) place =
      (if fs.locate true write.1 = .ok place then write.2 else []) ++ fs.writtenAt writes place := rfl

@[simp] lemma writtenAt_append (fs : FileSystem) (first second : List Write) (place : Place) :
    fs.writtenAt (first ++ second) place = fs.writtenAt first place ++ fs.writtenAt second place :=
  List.flatMap_append

lemma writtenAt_eq_nil {writes : List Write}
    (h : ∀ write ∈ writes, write.2 = [] ∨ fs.locate true write.1 ≠ .ok place) :
    fs.writtenAt writes place = [] :=
  List.flatMap_eq_nil_iff.mpr fun write hwrite => by
    rcases h write hwrite with hnone | helsewhere
    · simp [hnone]
    · exact if_neg helsewhere

/-- To open a file writes nothing. -/
lemma writtenAt_filter (fs : FileSystem) (writes : List Write) (place : Place) :
    fs.writtenAt (writes.filter (·.2 ≠ [])) place = fs.writtenAt writes place := by
  induction writes with
  | nil => rfl
  | cons write writes ih =>
    rw [writtenAt_cons, List.filter_cons]
    split_ifs with hwrites hplace hplace
    · rw [writtenAt_cons, if_pos hplace, ih]
    · rw [writtenAt_cons, if_neg hplace, ih]
    · have hnone : write.2 = [] := by simpa using hwrites
      rw [hnone, ih, List.nil_append]
    · rw [ih, List.nil_append]

/-- Paths that lead somewhere lead there still. -/
lemma Keeps.writtenAt {writes : List Write} (h : before.Keeps after)
    (hleads : ∀ write ∈ writes, ∃ place, before.locate true write.1 = .ok place) (place : Place) :
    after.writtenAt writes place = before.writtenAt writes place :=
  List.flatMap_congr fun write hwrite => by
    obtain ⟨found, hfound⟩ := hleads write hwrite
    rw [h.locate hfound, hfound]

/-- All paths that are written to lead somewhere. The files there get what is written, and no other file
comes, goes or changes. -/
structure Takes (before : FileSystem) (writes : List Write) (after : FileSystem) : Prop
    extends Keeps before after where
  leads : ∀ write ∈ writes, ∃ place, after.locate true write.1 = .ok place
  hasFile : ∀ place, after.HasFile place ↔
    before.HasFile place ∨ ∃ write ∈ writes, after.locate true write.1 = .ok place
  bytes : ∀ place, after.bytesAt place = before.bytesAt place ++ after.writtenAt writes place
  refusal : after.refusal? = before.refusal?

namespace Takes

variable {first second : List Write}

lemma refl (fs : FileSystem) : fs.Takes [] fs :=
  ⟨Keeps.refl fs, by simp, by simp, by simp, rfl⟩

lemma trans (h : before.Takes first between) (h' : between.Takes second after) :
    before.Takes (first ++ second) after := by
  have hsame : ∀ write ∈ first, ∀ place,
      after.locate true write.1 = .ok place ↔ between.locate true write.1 = .ok place := by
    intro write hwrite place
    obtain ⟨found, hfound⟩ := h.leads write hwrite
    rw [h'.locate hfound, hfound]
  have hwritten := h'.toKeeps.writtenAt h.leads
  refine ⟨h.toKeeps.trans h'.toKeeps, fun write hwrite => ?_, fun place => ?_, fun place => ?_,
    h'.refusal.trans h.refusal⟩
  · rcases List.mem_append.mp hwrite with hwrite | hwrite
    · obtain ⟨place, hplace⟩ := h.leads write hwrite
      exact ⟨place, h'.locate hplace⟩
    · exact h'.leads write hwrite
  · have hfirst : (∃ write ∈ first, after.locate true write.1 = .ok place) ↔
        ∃ write ∈ first, between.locate true write.1 = .ok place :=
      exists_congr fun write => and_congr_right fun hwrite => hsame write hwrite place
    simp only [h'.hasFile, h.hasFile, List.mem_append, or_and_right, exists_or, hfirst, or_assoc]
  · rw [h'.bytes, h.bytes, writtenAt_append, hwritten, List.append_assoc]

lemma content_of_not_written (h : before.Takes first after)
    (hplace : ∀ write ∈ first, after.locate true write.1 ≠ .ok place) (bytes : Bytes) :
    after.content? place = some (.file bytes) ↔ before.content? place = some (.file bytes) := by
  have hwritten : after.writtenAt first place = [] :=
    writtenAt_eq_nil fun write hwrite => .inr (hplace write hwrite)
  have hbytes := h.bytes place
  rw [hwritten, List.append_nil] at hbytes
  have hfile : after.HasFile place ↔ before.HasFile place := by
    rw [h.hasFile]
    exact or_iff_left fun ⟨write, hwrite, hlocate⟩ => hplace write hwrite hlocate
  by_cases hplace : after.HasFile place
  · rw [hplace.content, (hfile.mp hplace).content, hbytes]
  · exact iff_of_false (fun h => hplace ⟨bytes, h⟩) fun h => hplace (hfile.mpr ⟨bytes, h⟩)

/-- What a file held is what it holds first. -/
lemma content_append (h : before.Takes first after)
    (hplace : before.content? place = some (.file bytes)) :
    after.content? place = some (.file (bytes ++ after.writtenAt first place)) := by
  have hfile : after.HasFile place := (h.hasFile place).mpr (.inl ⟨bytes, hplace⟩)
  rw [hfile.content, h.bytes, bytesAt, hplace]

end Takes

/-! ### What is written -/

lemma takes_put (hlocate : fs.locate true p = .ok place) (hfree : fs.IsFree place) (bytes : Bytes)
    (now : Int) :
    fs.Takes [(p, bytes)] (fs.put place ⟨.file (fs.bytesAt place ++ bytes), now⟩) := by
  have hkeeps : fs.Keeps (fs.put place ⟨.file (fs.bytesAt place ++ bytes), now⟩) :=
    keeps_put hfree (by simp)
  have hplace := hkeeps.locate hlocate
  refine ⟨hkeeps, by simpa using ⟨place, hplace⟩, fun other => ?_, fun other => ?_, rfl⟩
  · simp only [HasFile, List.mem_singleton, exists_eq_left, hplace, Except.ok.injEq,
      content_put fs hfree.ne_nil]
    by_cases ho : other = place
    · simp [ho]
    · simp [ho, Ne.symm ho]
  · rw [writtenAt_cons, writtenAt_nil, hplace, bytesAt, content_put fs hfree.ne_nil]
    by_cases ho : other = place
    · simp [ho]
    · simp [ho, Ne.symm ho, bytesAt]

lemma takes_makeDirectory (h : makeDirectory now p fs = .ok after) : fs.Takes [] after := by
  obtain ⟨place, -, h⟩ := bind_eq_ok h
  split_ifs at h with hsome
  obtain rfl := Except.ok.inj h
  have hnone : fs.content? place = none := by simpa using hsome
  have hfree : fs.IsFree place := fun content hcontent => by simp [hnone] at hcontent
  have hcontent : ∀ other bytes, (fs.put place ⟨.directory, now⟩).content? other = some (.file bytes) ↔
      fs.content? other = some (.file bytes) := by
    intro other bytes
    rw [content_put fs hfree.ne_nil]
    split_ifs with ho
    · simp [ho, hnone]
    · rfl
  refine ⟨keeps_put hfree (by simp), by simp, fun other => ?_, fun other => ?_, rfl⟩
  · simp [HasFile, hcontent]
  · rw [writtenAt_nil, List.append_nil, bytesAt, bytesAt, content_put fs hfree.ne_nil]
    split_ifs with ho
    · simp [ho, hnone]
    · rfl

lemma takes_settle {r : Except FileError FileSystem} (h : ∀ made, r = .ok made → fs.Takes [] made)
    (p : Path) : fs.Takes [] (makeDirectories.settle p fs r).1 := by
  cases r with
  | ok made => exact h made rfl
  | error e =>
    rw [settle_error]
    exact Takes.refl fs

/-- No file changes when directories are made, also if that fails half way. -/
lemma takes_makeDirectories (now : Int) (depth : Nat) (p : Path) (fs : FileSystem) :
    fs.Takes [] (makeDirectories now depth p fs).1 := by
  have hmakes : ∀ (p : Path) (fs : FileSystem),
      fs.Takes [] (makeDirectories.settle p fs (makeDirectory now p fs)).1 := fun p fs =>
    takes_settle (fun made hmade => takes_makeDirectory hmade) p
  induction depth generalizing p fs with
  | zero =>
    rcases makeDirectories_cases now 0 p fs with ⟨-, h⟩ | ⟨-, -, h⟩ | ⟨-, d, hdepth, -⟩
    · rw [h]
      exact hmakes p fs
    · rw [h]
      exact Takes.refl fs
    · cases hdepth
  | succ depth ih =>
    rcases makeDirectories_cases now (depth + 1) p fs with ⟨-, h⟩ | ⟨-, hdepth, -⟩ | ⟨-, d, hdepth, h⟩
    · rw [h]
      exact hmakes p fs
    · cases hdepth
    · obtain rfl : depth = d := Nat.succ.inj hdepth
      have hparent := ih p.parent fs
      rw [h]
      rcases hmade : makeDirectories now depth p.parent fs with ⟨between, outcome⟩
      rw [hmade] at hparent
      cases outcome with
      | error e => exact hparent
      | ok _ => exact hparent.trans (hmakes p between)

/-- A file is opened that is there already. -/
lemma takes_nothing (hlocate : fs.locate true p = .ok place) (hfile : fs.HasFile place) :
    fs.Takes [(p, [])] fs := by
  refine ⟨Keeps.refl fs, by simpa using ⟨place, hlocate⟩, fun other => ?_, fun other => ?_, rfl⟩
  · simp only [List.mem_singleton, exists_eq_left, hlocate, Except.ok.injEq]
    exact ⟨.inl, fun hother => hother.elim id fun hplace => hplace ▸ hfile⟩
  · simp [writtenAt_cons]

lemma takes_openFile (h : openFile now p fs = .ok (place, after)) :
    fs.Takes [(p, [])] after ∧ after.locate true p = .ok place ∧ after.HasFile place := by
  have hlocate := locate_openFile h
  rw [openFile, hlocate] at h
  simp only [Except.bind] at h
  have htakes : fs.Takes [(p, [])] after := by
    cases hcontent : fs.content? place with
    | none =>
      simp only [hcontent, Except.ok.injEq, Prod.mk.injEq, true_and] at h
      have hput := takes_put hlocate (fun content h => by simp [hcontent] at h) [] now
      rw [bytesAt, hcontent] at hput
      rwa [← h]
    | some content =>
      cases content with
      | file held =>
        simp only [hcontent, Except.ok.injEq, Prod.mk.injEq, true_and] at h
        subst h
        exact takes_nothing hlocate ⟨held, hcontent⟩
      | directory => simp [hcontent] at h
      | link target => simp [hcontent] at h
  have hthere := htakes.locate hlocate
  exact ⟨htakes, hthere, (htakes.hasFile place).mpr (.inr ⟨_, List.mem_singleton_self _, hthere⟩)⟩

lemma takes_extend (hlocate : fs.locate true p = .ok place) (hfile : fs.HasFile place) (now : Int)
    (bytes : Bytes) : fs.Takes [(p, bytes)] (extend now place bytes fs) := by
  rw [extend, hfile.content]
  exact takes_put hlocate hfile.isFree bytes now

/-- What a file takes of bytes: as things stand, all of them or so many. -/
def taken (fs : FileSystem) (place : Place) (bytes : Bytes) : Bytes :=
  match fs.refusal? fs.items place bytes with
  | none => bytes
  | some (taken, _) => bytes.take taken

lemma taken_prefix (fs : FileSystem) (place : Place) (bytes : Bytes) : fs.taken place bytes <+: bytes := by
  rw [taken]
  split
  · exact List.prefix_rfl
  · exact List.take_prefix _ _

lemma refusal_append (now : Int) (place : Place) (bytes : Bytes) (fs : FileSystem) :
    (fs.append now place bytes).1.refusal? = fs.refusal? := by
  have hextend : ∀ more, (fs.extend now place more).refusal? = fs.refusal? := by
    intro more
    rw [extend]
    split <;> rfl
  rw [append]
  cases fs.refusal? fs.items place bytes with
  | none => exact hextend bytes
  | some refusal =>
    dsimp only
    split_ifs
    · rfl
    · exact hextend _

lemma takes_append (hlocate : fs.locate true p = .ok place) (hfile : fs.HasFile place) (now : Int)
    (bytes : Bytes) : fs.Takes [(p, fs.taken place bytes)] (fs.append now place bytes).1 := by
  rw [taken, append]
  cases fs.refusal? fs.items place bytes with
  | none => exact takes_extend hlocate hfile now bytes
  | some refusal =>
    obtain ⟨taken, problem⟩ := refusal
    dsimp only
    split_ifs with hnone
    · rw [hnone, List.take_zero]
      exact takes_nothing hlocate hfile
    · exact takes_extend hlocate hfile now _

lemma takes_record {depth : Nat} (h : record now depth p bytes fs = (after, .ok ())) :
    fs.Takes [(p, []), (p, bytes)] after := by
  obtain ⟨made, place, opened, hmake, hopen, rfl⟩ := record_ok h
  have hmakes := takes_makeDirectories now depth p.parent fs
  rw [hmake] at hmakes
  obtain ⟨hopens, hlocate, hfile⟩ := takes_openFile hopen
  exact hmakes.trans (hopens.trans (takes_extend hlocate hfile now bytes))

/-- What open files take does not change with a record. -/
lemma refusal_record (now : Int) (depth : Nat) (p : Path) (bytes : Bytes) (fs : FileSystem) :
    (fs.record now depth p bytes).1.refusal? = fs.refusal? := by
  have hmakes := (takes_makeDirectories now depth p.parent fs).refusal
  rw [record]
  rcases hmade : makeDirectories now depth p.parent fs with ⟨made, result⟩
  rw [hmade] at hmakes
  cases result with
  | error error => exact hmakes
  | ok _ =>
    dsimp only
    cases hopen : openFile now p made with
    | error error => exact hmakes
    | ok opened => exact (refusal_append _ _ _ _).trans ((takes_openFile hopen).1.refusal.trans hmakes)

/-- Files that are open take whatever is written to them. -/
def Willing (fs : FileSystem) : Prop := ∀ items place bytes, fs.refusal? items place bytes = none

lemma Willing.taken (h : fs.Willing) (place : Place) (bytes : Bytes) : fs.taken place bytes = bytes := by
  rw [FileSystem.taken, h]

end CommandWrap.FileSystem

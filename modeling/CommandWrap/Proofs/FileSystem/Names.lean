import Mathlib
import CommandWrap.Fault
import CommandWrap.Proofs.FileSystem.Listing

/-! Names that no file system knows. Whatever stands in the file system, an operation on a path with
such a name fails in another way than by a refusal, and one on any other path does not. -/
namespace CommandWrap

/-- The code point can stand in a name: it is not null, and some bytes stand for it. -/
def CodePoint.IsNameable (c : CodePoint) : Prop :=
  (c.isSurrogate && !Utf8.isStrayByte c) = false ∧ c.val ≠ 0

instance (c : CodePoint) : Decidable c.IsNameable := inferInstanceAs (Decidable (_ ∧ _))

def Path.IsNameable (p : Path) : Prop := ∀ part ∈ p.parts, ∀ c ∈ part, c.IsNameable

instance (p : Path) : Decidable p.IsNameable :=
  inferInstanceAs (Decidable (∀ part ∈ p.parts, ∀ c ∈ part, c.IsNameable))

lemma Path.IsNameable.parent {p : Path} (h : p.IsNameable) : p.parent.IsNameable :=
  fun part hpart => h part (List.dropLast_subset _ hpart)

namespace FileSystem

variable {α : Type} {fs : FileSystem} {p : Path} {now : Int}

lemma mem_toText {c : CodePoint} (hc : c ∈ p.toText) :
    c = CodePoint.ofChar '.' ∨ c = CodePoint.ofChar '/' ∨ ∃ part ∈ p.parts, c ∈ part := by
  rw [Path.toText] at hc
  split_ifs at hc with hempty
  · exact .inl (List.mem_singleton.mp hc)
  · rcases List.mem_append.mp hc with hc | hc
    · exact .inr (.inl (List.eq_of_mem_replicate hc))
    · refine .inr ?_
      rcases List.eq_nil_or_concat p.parts with hparts | ⟨front, last, hparts⟩
      · simp [hparts, Text.join] at hc
      · rw [hparts, List.concat_eq_append, join_append_singleton, List.mem_append,
          List.mem_flatMap] at hc
        rcases hc with ⟨part, hpart, hc⟩ | hc
        · rcases List.mem_append.mp hc with hc | hc
          · exact .inr ⟨part, by simp [hparts, hpart], hc⟩
          · exact .inl (List.mem_singleton.mp hc)
        · exact .inr ⟨last, by simp [hparts], hc⟩

lemma mem_toText_of_mem {c : CodePoint} {part : Text} (hpart : part ∈ p.parts) (hc : c ∈ part) :
    c ∈ p.toText := by
  rw [Path.toText, if_neg (by rintro ⟨-, hnil⟩; simp [hnil] at hpart)]
  refine List.mem_append_right _ ?_
  rcases List.eq_nil_or_concat p.parts with hparts | ⟨front, last, hparts⟩
  · simp [hparts] at hpart
  · rw [hparts, List.concat_eq_append, List.mem_append] at hpart
    rw [hparts, List.concat_eq_append, join_append_singleton, List.mem_append, List.mem_flatMap]
    rcases hpart with hpart | hpart
    · exact .inl ⟨part, hpart, List.mem_append_left _ hc⟩
    · exact .inr (List.mem_singleton.mp hpart ▸ hc)

lemma isNameable_iff : p.IsNameable ↔ ∀ c ∈ p.toText, c.IsNameable := by
  have hsigns : (CodePoint.ofChar '.').IsNameable ∧ (CodePoint.ofChar '/').IsNameable := by decide
  constructor
  · intro h c hc
    rcases mem_toText hc with rfl | rfl | ⟨part, hpart, hc⟩
    · exact hsigns.1
    · exact hsigns.2
    · exact h part hpart c hc
  · intro h part hpart c hc
    exact h c (mem_toText_of_mem hpart hc)

/-! ### Faults -/

/-- The operation failed, and not by a refusal. -/
def IsFault (r : Except FileError α) : Prop := ∃ e, r = .error e ∧ (Fault.file e).isRefusal = false

lemma not_isFault_ok (a : α) : ¬ IsFault (.ok a : Except FileError α) := by simp [IsFault]

lemma not_isFault_refused (problem : FileProblem) (p : Path) :
    ¬ IsFault (.error (.refused problem p) : Except FileError α) := by
  simp [IsFault, Fault.isRefusal]

lemma isFault_checkPath : IsFault (checkPath p) ↔ ¬ p.IsNameable := by
  rw [isNameable_iff]
  have hflaw : Utf8.encodeError? Utf8.isStrayByte 0 p.toText = none ↔
      ∀ c ∈ p.toText, (c.isSurrogate && !Utf8.isStrayByte c) = false := Utf8.encodeError_eq_none_iff
  have hnull : (p.toText.any fun c => decide (c.val = 0)) = true ↔ ∃ c ∈ p.toText, c.val = 0 := by
    simp
  rw [checkPath]
  cases hfound : Utf8.encodeError? Utf8.isStrayByte 0 p.toText with
  | some flaw =>
    have hbad := mt hflaw.mpr (by simp [hfound])
    exact iff_of_true ⟨_, rfl, rfl⟩ fun h => hbad fun c hc => (h c hc).1
  | none =>
    have hgood := hflaw.mp hfound
    dsimp only
    split_ifs with hzero hlong
    · obtain ⟨c, hc, hval⟩ := hnull.mp hzero
      exact iff_of_true ⟨_, rfl, rfl⟩ fun h => (h c hc).2 hval
    · refine iff_of_false (not_isFault_refused _ _) (not_not_intro fun c hc => ⟨hgood c hc, ?_⟩)
      exact fun hval => hzero (hnull.mpr ⟨c, hc, hval⟩)
    · refine iff_of_false (not_isFault_ok _) (not_not_intro fun c hc => ⟨hgood c hc, ?_⟩)
      exact fun hval => hzero (hnull.mpr ⟨c, hc, hval⟩)

lemma isFault_locate (fs : FileSystem) (through : Bool) (p : Path) :
    IsFault (fs.locate through p) ↔ ¬ p.IsNameable := by
  rw [← isFault_checkPath, locate]
  cases checkPath p with
  | error e => simp [IsFault, Except.bind]
  | ok _ =>
    refine iff_of_false ?_ (not_isFault_ok _)
    cases fs.follow through maxLinks (fs.start p) p.parts with
    | error problem => exact not_isFault_refused problem p
    | ok place => exact not_isFault_ok place

lemma isFault_bind {r : Except FileError α} {β : Type} {f : α → Except FileError β}
    (hf : ∀ a, ¬ IsFault (f a)) : IsFault (r.bind f) ↔ IsFault r := by
  cases r with
  | error e => simp [IsFault, Except.bind]
  | ok a => exact iff_of_false (hf a) (not_isFault_ok a)

lemma isFault_makeDirectory (now : Int) (p : Path) (fs : FileSystem) :
    IsFault (makeDirectory now p fs) ↔ ¬ p.IsNameable := by
  rw [makeDirectory, isFault_bind, isFault_locate]
  intro place
  split_ifs
  · exact not_isFault_refused _ _
  · exact not_isFault_ok _

lemma isFault_openFile (now : Int) (p : Path) (fs : FileSystem) :
    IsFault (openFile now p fs) ↔ ¬ p.IsNameable := by
  rw [openFile, isFault_bind, isFault_locate]
  intro place
  split
  · exact not_isFault_ok _
  · exact not_isFault_ok _
  · exact not_isFault_refused _ _

lemma not_isFault_isAt (fs : FileSystem) (class? : Content → Bool) (p : Path) :
    ¬ IsFault (fs.isAt class? p) := by
  rw [isAt]
  split
  · exact not_isFault_ok _
  · exact not_isFault_refused _ _
  · exact not_isFault_ok _

lemma not_isFault_settle {r : Except FileError FileSystem} (h : ¬ IsFault r) (p : Path)
    (fs : FileSystem) : ¬ IsFault (makeDirectories.settle p fs r).2 := by
  match r with
  | .ok changed =>
    simp only [makeDirectories.settle]
    exact not_isFault_ok _
  | .error (.refused problem q) =>
    by_cases hproblem : problem = .notFound
    · rw [hproblem, settle_notFound]
      exact not_isFault_refused _ _
    · have hlooked := not_isFault_isAt fs (· = .directory) p
      rw [← isDirectory] at hlooked
      rw [settle_refused hproblem]
      split
      · exact not_isFault_ok _
      · exact not_isFault_refused _ _
      · rename_i e he
        rw [he] at hlooked
        exact fun hfault => hlooked (by simpa [IsFault] using hfault)
  | .error (.unwritten problem) => simp [IsFault, Fault.isRefusal, makeDirectories.settle]
  | .error .nullByte => exact absurd ⟨_, rfl, rfl⟩ h
  | .error (.unnameable flaw) => exact absurd ⟨_, rfl, rfl⟩ h
  | .error .tooDeep => exact absurd ⟨_, rfl, rfl⟩ h

lemma isFault_settle_makeDirectory (now : Int) (p : Path) (fs : FileSystem) :
    IsFault (makeDirectories.settle p fs (makeDirectory now p fs)).2 ↔ ¬ p.IsNameable := by
  rw [← isFault_makeDirectory now p fs]
  refine ⟨not_imp_not.mp fun hfine => not_isFault_settle hfine p fs, ?_⟩
  rintro ⟨e, he, hrefusal⟩
  rw [he]
  cases e with
  | refused problem q => simp [Fault.isRefusal] at hrefusal
  | unwritten problem => simp [Fault.isRefusal] at hrefusal
  | nullByte => exact ⟨_, rfl, rfl⟩
  | unnameable flaw => exact ⟨_, rfl, rfl⟩
  | tooDeep => exact ⟨_, rfl, rfl⟩

/-! ### Directories in directories that are missing -/

/-- More than `depth` directories are missing above the path. -/
def LacksTooMany (fs : FileSystem) : (depth : Nat) → Path → Prop
  | 0, p => fs.LacksDirectory p
  | depth + 1, p => fs.LacksDirectory p ∧ fs.LacksTooMany depth p.parent

lemma LacksTooMany.lacksDirectory {depth : Nat} (h : fs.LacksTooMany depth p) : fs.LacksDirectory p := by
  cases depth with
  | zero => exact h
  | succ depth => exact h.1

lemma LacksTooMany.isNameable {depth : Nat} (h : fs.LacksTooMany depth p) : p.IsNameable := by
  by_contra hp
  have hfault := (isFault_locate fs false p).mpr hp
  rw [h.lacksDirectory.1] at hfault
  exact not_isFault_refused _ _ hfault

/-- No more directories can be missing than the path has names. -/
lemma not_lacksTooMany {depth : Nat} (h : p.parts.length ≤ depth) : ¬ fs.LacksTooMany depth p := by
  induction depth generalizing p with
  | zero =>
    intro hlacks
    have hnil : p.parts = [] := List.length_eq_zero_iff.mp (Nat.le_zero.mp h)
    refine hlacks.2 ?_
    rw [Path.parent, hnil]
    exact congrArg _ hnil.symm
  | succ depth ih =>
    rintro ⟨-, hparent⟩
    refine ih ?_ hparent
    rw [Path.parent, List.length_dropLast]
    omega

section Missing

variable {first : Text} {rest : List Text} (hstart : fs.content? (fs.start p) = some .directory)
  (hname : first ≠ "..") (hlength : byteLength first ≤ maxNameLength)
  (hmissing : fs.content? (fs.start p ++ [first]) = none)

include hstart hname hlength hmissing

end Missing

/-- Making directories fails otherwise than by a refusal only at a path with such a name, or where too
many are missing. -/
lemma isFault_makeDirectories (now : Int) (depth : Nat) (p : Path) (fs : FileSystem) :
    IsFault (makeDirectories now depth p fs).2 ↔ ¬ p.IsNameable ∨ fs.LacksTooMany depth p := by
  induction depth generalizing p fs with
  | zero =>
    rcases makeDirectories_cases now 0 p fs with ⟨hthere, h⟩ | ⟨hlacks, -, h⟩ | ⟨-, d, hdepth, -⟩
    · rw [h, isFault_settle_makeDirectory, LacksTooMany, or_iff_left hthere]
    · rw [h, LacksTooMany]
      exact iff_of_true ⟨_, rfl, rfl⟩ (.inr hlacks)
    · cases hdepth
  | succ depth ih =>
    rw [LacksTooMany]
    rcases makeDirectories_cases now (depth + 1) p fs with
      ⟨hthere, h⟩ | ⟨-, hdepth, -⟩ | ⟨hlacks, d, hdepth, h⟩
    · rw [h, isFault_settle_makeDirectory, or_iff_left fun hdeep => hthere hdeep.1]
    · cases hdepth
    · obtain rfl : depth = d := Nat.succ.inj hdepth
      have hp : p.IsNameable := LacksTooMany.isNameable (show fs.LacksTooMany 0 p from hlacks)
      have hparent := ih p.parent fs
      rw [or_iff_right (not_not_intro hp.parent)] at hparent
      rw [h, or_iff_right (not_not_intro hp), and_iff_right hlacks, ← hparent]
      rcases hmade : makeDirectories now depth p.parent fs with ⟨between, outcome⟩
      cases outcome with
      | error e => exact Iff.rfl
      | ok _ =>
        refine iff_of_false (mt (isFault_settle_makeDirectory now p between).mp (not_not_intro hp)) ?_
        exact not_isFault_ok _

end FileSystem
end CommandWrap

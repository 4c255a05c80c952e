import Mathlib
import CommandWrap.Proofs.FileSystem.Following
import CommandWrap.Proofs.Text.CodePoint
import CommandWrap.Proofs.Text.Utf8

/-! What adding to a file in a directory does: the directory is there afterwards, the file holds more,
and everything else is as it was. Directories and links stay, so paths lead where they led. -/
namespace CommandWrap.FileSystem

variable {fs before between made after : FileSystem} {p : Path} {name : Text} {bytes : Bytes} {now : Int}
  {place directory : Place}

@[simp] lemma parent_child (p : Path) (name : Text) : (p.child name).parent = p := by
  simp [Path.child, Path.parent]

@[simp] lemma parts_child (p : Path) (name : Text) : (p.child name).parts = p.parts ++ [name] := rfl

@[simp] lemma start_child (fs : FileSystem) (p : Path) (name : Text) :
    fs.start (p.child name) = fs.start p := rfl

/-- The path leads to a directory, which stands at this place. -/
def IsDirectoryAt (fs : FileSystem) (p : Path) (place : Place) : Prop :=
  fs.follow true maxLinks (fs.start p) p.parts = .ok place ∧ fs.content? place = some .directory

/-- What a file holds; nothing, if there is none. -/
def bytesAt (fs : FileSystem) (place : Place) : Bytes :=
  match fs.content? place with
  | some (.file bytes) => bytes
  | _ => []

/-- A file stands at the place, or nothing does. -/
def IsFree (fs : FileSystem) (place : Place) : Prop :=
  ∀ content, fs.content? place = some content → ∃ bytes, content = .file bytes

lemma IsFree.ne_directory (h : fs.IsFree place) : fs.content? place ≠ some .directory := by
  intro hcontent
  obtain ⟨bytes, hbytes⟩ := h _ hcontent
  cases hbytes

lemma IsFree.ne_link (h : fs.IsFree place) (target : Text) :
    fs.content? place ≠ some (.link target) := by
  intro hcontent
  obtain ⟨bytes, hbytes⟩ := h _ hcontent
  cases hbytes

lemma follow_of_locate {through : Bool} (h : fs.locate through p = .ok place) :
    checkPath p = .ok () ∧ fs.follow through maxLinks (fs.start p) p.parts = .ok place := by
  rw [locate] at h
  cases hcheck : checkPath p with
  | error e => simp [hcheck, Except.bind] at h
  | ok _ =>
    cases hfollow : fs.follow through maxLinks (fs.start p) p.parts with
    | error e => simp [hcheck, hfollow, Except.bind, Except.mapError] at h
    | ok found => simpa [hcheck, hfollow, Except.bind, Except.mapError] using h

/-! ### Places that stay -/

/-- Directories stay, and links neither come nor go. -/
structure Keeps (before after : FileSystem) : Prop where
  current : after.current = before.current
  directory : ∀ {place}, before.content? place = some .directory → after.content? place = some .directory
  link : ∀ {place target},
    after.content? place = some (.link target) ↔ before.content? place = some (.link target)

namespace Keeps

lemma refl (fs : FileSystem) : fs.Keeps fs := ⟨rfl, id, Iff.rfl⟩

lemma trans (h : before.Keeps between) (h' : between.Keeps after) : before.Keeps after :=
  ⟨h'.current.trans h.current, fun hplace => h'.directory (h.directory hplace), h'.link.trans h.link⟩

/-- Names lead where they led. Only the last of them may have stood for nothing, or for a file. -/
lemma follow (h : before.Keeps after) {through : Bool} {links : Nat} {here : Place} {rest : List Text}
    (hfollow : before.follow through links here rest = .ok place) :
    after.follow through links here rest = .ok place := by
  -- At the last name the two may differ: a directory or a file may have come to stand there.
  have hlast : ∀ {links : Nat} {here : Place} {name : Text},
      before.content? here = some .directory → name ≠ ".." → ¬ maxNameLength < byteLength name →
      (∀ target, before.content? (here ++ [name]) ≠ some (.link target)) →
      after.follow through links here [name] = .ok (here ++ [name]) := by
    intro links here name hhere hname hshort hplain
    cases hthere : after.content? (here ++ [name]) with
    | none => exact follow_missing (h.directory hhere) hname (by omega) hthere
    | some content =>
      rw [follow_into (h.directory hhere) hname (by omega) hthere, FileSystem.follow]
      rintro target rfl
      exact hplain target (h.link.mp hthere)
  fun_induction FileSystem.follow before through links here rest with
  | case1 links here => rwa [FileSystem.follow]
  | case3 links here rest hhere ih =>
    rw [follow_up (h.directory hhere)]
    exact ih hfollow
  | case5 links here name hhere hname hshort there hthere =>
    rw [← Except.ok.inj hfollow]
    exact hlast hhere hname hshort (by simp [there, hthere])
  | case7 links here name rest hhere hname hshort there target hthere hstop =>
    obtain ⟨rfl, hthrough⟩ := hstop
    rw [← Except.ok.inj hfollow, FileSystem.follow, h.directory hhere]
    simp [hname, hshort, there, h.link.mpr hthere, hthrough]
  | case9 here name rest hhere hname hshort there target hthere hgo links start ih =>
    rw [follow_link (h.directory hhere) hname (by omega) (h.link.mpr hthere) hgo]
    exact ih hfollow
  | case10 links here name rest hhere hname hshort there content hcontent hthere ih =>
    cases rest with
    | nil =>
      rw [FileSystem.follow] at hfollow
      rw [← Except.ok.inj hfollow]
      exact hlast hhere hname hshort fun target htarget => by
        rw [hthere] at htarget
        exact hcontent target (Option.some.inj htarget)
    | cons next rest =>
      -- More names follow, so this is a directory, and it has stayed one.
      cases content with
      | directory =>
        rw [follow_into (h.directory hhere) hname (by omega) (h.directory hthere) hcontent]
        exact ih hfollow
      | file bytes =>
        rw [FileSystem.follow, hthere] at hfollow
        simp at hfollow
      | link target => exact absurd rfl (hcontent target)
  | case2 | case4 | case6 | case8 | case11 => simp at hfollow

lemma start (h : before.Keeps after) (p : Path) : after.start p = before.start p := by
  rw [FileSystem.start, FileSystem.start, h.current]

lemma locate (h : before.Keeps after) {through : Bool} (hlocate : before.locate through p = .ok place) :
    after.locate through p = .ok place := by
  obtain ⟨hcheck, hfollow⟩ := follow_of_locate hlocate
  rw [FileSystem.locate, hcheck, h.start]
  simp [Except.bind, h.follow hfollow, Except.mapError]

lemma isDirectoryAt (h : before.Keeps after) (hplace : before.IsDirectoryAt p place) :
    after.IsDirectoryAt p place := by
  refine ⟨?_, h.directory hplace.2⟩
  rw [h.start]
  exact h.follow hplace.1

end Keeps

lemma IsFree.ne_nil (h : fs.IsFree place) : place ≠ [] := by
  rintro rfl
  exact h.ne_directory rfl

/-- A directory or a file can come where nothing is, and a file in the place of a file. -/
lemma keeps_put (hfree : fs.IsFree place) {item : Item} (hitem : ∀ target, item.content ≠ .link target) :
    fs.Keeps (fs.put place item) := by
  refine ⟨rfl, fun {other} hother => ?_, fun {other target} => ?_⟩
  · rw [content_put fs hfree.ne_nil, if_neg, hother]
    rintro rfl
    exact hfree.ne_directory hother
  · rw [content_put fs hfree.ne_nil]
    split_ifs with ho
    · subst ho
      exact iff_of_false (fun h => hitem target (Option.some.inj h)) (hfree.ne_link target)
    · rfl

/-! ### Making directories -/

lemma checkPath_ne_notFound (p q : Path) : checkPath p ≠ .error (.refused .notFound q) := by
  rw [checkPath]
  split
  · simp
  · split_ifs <;> simp

lemma settle_notFound (p q : Path) (fs : FileSystem) :
    makeDirectories.settle p fs (.error (.refused .notFound q)) = (fs, .error (.refused .notFound q)) :=
  rfl

lemma settle_refused {problem : FileProblem} (h : problem ≠ .notFound) (p q : Path) (fs : FileSystem) :
    makeDirectories.settle p fs (.error (.refused problem q)) = match fs.isDirectory p with
      | .ok true => (fs, .ok ())
      | .ok false => (fs, .error (.refused problem q))
      | .error e => (fs, .error e) := by
  cases problem with
  | notFound => exact absurd rfl h
  | _ => rfl

/-- The path leads nowhere for want of a directory on the way. -/
def LacksDirectory (fs : FileSystem) (p : Path) : Prop :=
  fs.locate false p = .error (.refused .notFound p) ∧ p.parent ≠ p

lemma locate_notFound_iff {through : Bool} {q : Path} :
    fs.locate through p = .error (.refused .notFound q) ↔ checkPath p = .ok () ∧
      fs.follow through maxLinks (fs.start p) p.parts = .error .notFound ∧ q = p := by
  rw [locate]
  cases hcheck : checkPath p with
  | error e =>
    have hne : e ≠ .refused .notFound q := fun he => checkPath_ne_notFound p q (he ▸ hcheck)
    simp [Except.bind, hne]
  | ok _ =>
    cases fs.follow through maxLinks (fs.start p) p.parts with
    | error problem => simp [Except.bind, Except.mapError, eq_comm]
    | ok place => simp [Except.bind, Except.mapError]

lemma makeDirectory_notFound_iff {q : Path} : makeDirectory now p fs = .error (.refused .notFound q) ↔
    fs.locate false p = .error (.refused .notFound p) ∧ q = p := by
  rw [makeDirectory]
  cases hlocate : fs.locate false p with
  | ok place =>
    simp only [Except.bind, reduceCtorEq, false_and, iff_false]
    split_ifs <;> simp
  | error e =>
    simp only [Except.bind, Except.error.injEq]
    refine ⟨?_, ?_⟩
    · rintro rfl
      obtain ⟨-, -, rfl⟩ := locate_notFound_iff.mp hlocate
      exact ⟨rfl, rfl⟩
    · rintro ⟨h, rfl⟩
      exact h

/-- Directories are made by one step at the path, or else, where one is missing on the way, by one there
after those around it. That is given up when too many are missing. -/
lemma makeDirectories_cases (now : Int) (depth : Nat) (p : Path) (fs : FileSystem) :
    ¬ fs.LacksDirectory p ∧
      makeDirectories now depth p fs = makeDirectories.settle p fs (makeDirectory now p fs) ∨
    fs.LacksDirectory p ∧ depth = 0 ∧ makeDirectories now depth p fs = (fs, .error .tooDeep) ∨
    fs.LacksDirectory p ∧ ∃ d, depth = d + 1 ∧
      makeDirectories now depth p fs = match makeDirectories now d p.parent fs with
        | (between, .error e) => (between, .error e)
        | (between, .ok ()) => makeDirectories.settle p between (makeDirectory now p between) := by
  have hmissing : (∃ q, makeDirectory now p fs = .error (.refused .notFound q)) ↔
      fs.locate false p = .error (.refused .notFound p) := by
    simp only [makeDirectory_notFound_iff, exists_and_left, exists_eq, and_true]
  rw [makeDirectories.eq_def, LacksDirectory, ← hmissing]
  dsimp only
  cases hmake : makeDirectory now p fs with
  | ok changed => exact .inl ⟨by simp, rfl⟩
  | error e =>
    cases e with
    | refused problem q =>
      cases problem with
      | notFound =>
        dsimp only
        split_ifs with hroot
        · exact .inl ⟨fun h => h.2 hroot, rfl⟩
        · have hlacks : (∃ r, (Except.error (.refused .notFound q) : Except FileError FileSystem) =
              .error (.refused .notFound r)) ∧ p.parent ≠ p := ⟨⟨q, rfl⟩, hroot⟩
          cases depth with
          | zero => exact .inr (.inl ⟨hlacks, rfl, rfl⟩)
          | succ d => exact .inr (.inr ⟨hlacks, d, rfl, rfl⟩)
      | _ => exact .inl ⟨by simp, rfl⟩
    | _ => exact .inl ⟨by simp, rfl⟩

lemma settle_error (p : Path) (fs : FileSystem) (e : FileError) :
    (makeDirectories.settle p fs (.error e)).1 = fs := by
  cases e with
  | refused problem q =>
    by_cases hproblem : problem = .notFound
    · rw [hproblem, settle_notFound]
    · rw [settle_refused hproblem]
      split <;> rfl
  | _ => rfl

lemma makeDirectories_of_isDirectoryAt (h : fs.IsDirectoryAt p place) (now : Int) (depth : Nat) :
    (makeDirectories now depth p fs).1 = fs := by
  obtain ⟨last, hlast, hsome⟩ := follow_last h.1 h.2
  have hrefused : ∃ e, makeDirectory now p fs = .error e := by
    rw [makeDirectory, locate]
    cases hcheck : checkPath p with
    | error e => exact ⟨e, rfl⟩
    | ok _ => exact ⟨.refused .occupied p, by simp [Except.bind, hlast, Except.mapError, hsome]⟩
  have hthere : ¬ fs.LacksDirectory p := by
    rintro ⟨hmissing, -⟩
    have hfollow := (locate_notFound_iff.mp hmissing).2.1
    simp [hlast] at hfollow
  obtain ⟨e, he⟩ := hrefused
  rcases makeDirectories_cases now depth p fs with ⟨-, hstep⟩ | ⟨hlacks, -⟩ | ⟨hlacks, -⟩
  · rw [hstep, he, settle_error]
  · exact absurd hlacks hthere
  · exact absurd hlacks hthere

lemma IsDirectoryAt.unique (h : fs.IsDirectoryAt p place) (h' : fs.IsDirectoryAt p directory) :
    place = directory := Except.ok.inj (h.1.symm.trans h'.1)

/-- A directory that was there already is the one found where directories were made. -/
lemma IsDirectoryAt.eq_of_makeDirectories (h : fs.IsDirectoryAt p place) {depth : Nat}
    (hmake : makeDirectories now depth p fs = (made, .ok ())) (hmade : made.IsDirectoryAt p directory) :
    made = fs ∧ directory = place := by
  have hsame : made = fs := by
    rw [← makeDirectories_of_isDirectoryAt h now depth, hmake]
  subst hsame
  exact ⟨rfl, hmade.unique h⟩

/-- A file that is opened and added to holds more, and the rest is the same. -/
lemma extend_openFile (h : openFile now p fs = .ok (place, made)) (hfree : fs.IsFree place)
    (bytes : Bytes) : fs.Keeps (extend now place bytes made) ∧
      ∀ other, (extend now place bytes made).content? other =
        if other = place then some (.file (fs.bytesAt place ++ bytes)) else fs.content? other := by
  have hplace := hfree.ne_nil
  have hput : ∀ {files : FileSystem} {before : Bytes}, files.content? place = some (.file before) →
      extend now place bytes files = files.put place ⟨.file (before ++ bytes), now⟩ := by
    intro files before hbefore
    rw [extend, hbefore]
  have hfile : ∀ {files : FileSystem} {before : Bytes}, files.content? place = some (.file before) →
      files.IsFree place := by
    intro files before hbefore content hcontent
    rw [hbefore] at hcontent
    exact ⟨before, (Option.some.inj hcontent).symm⟩
  have hkeeps : ∀ {files : FileSystem} {held : Bytes}, files.IsFree place →
      files.Keeps (files.put place ⟨.file held, now⟩) := fun hfree => keeps_put hfree (by simp)
  simp only [openFile, Except.bind] at h
  cases hlocate : fs.locate true p with
  | error e => simp [hlocate] at h
  | ok found =>
    simp only [hlocate] at h
    cases hcontent : fs.content? found with
    | none =>
      simp only [hcontent, Except.ok.injEq, Prod.mk.injEq] at h
      obtain ⟨rfl, rfl⟩ := h
      have hempty : (fs.put found ⟨.file [], now⟩).content? found = some (.file []) := by
        rw [content_put fs hplace, if_pos rfl]
      rw [hput hempty]
      refine ⟨(hkeeps hfree).trans (hkeeps (hfile hempty)), fun other => ?_⟩
      rw [content_put _ hplace, content_put _ hplace, bytesAt, hcontent]
      by_cases ho : other = found
      · rw [if_pos ho, if_pos ho]
      · rw [if_neg ho, if_neg ho, if_neg ho]
    | some content =>
      cases content with
      | file before =>
        simp only [hcontent, Except.ok.injEq, Prod.mk.injEq] at h
        obtain ⟨rfl, rfl⟩ := h
        rw [hput hcontent]
        refine ⟨hkeeps hfree, fun other => ?_⟩
        rw [content_put _ hplace, bytesAt, hcontent]
      | directory => simp [hcontent] at h
      | link target => simp [hcontent] at h

lemma locate_openFile (h : openFile now p fs = .ok (place, made)) : fs.locate true p = .ok place := by
  simp only [openFile, Except.bind] at h
  cases hlocate : fs.locate true p with
  | error e => simp [hlocate] at h
  | ok found =>
    cases hcontent : fs.content? found with
    | none => simp_all
    | some content => cases content <;> simp_all

lemma append_ok (h : append now place bytes fs = (after, .ok ())) :
    fs.refusal? fs.items place bytes = none ∧ after = extend now place bytes fs := by
  rw [append] at h
  cases hrefusal : fs.refusal? fs.items place bytes with
  | none =>
    simp only [hrefusal, Prod.mk.injEq, and_true] at h
    exact ⟨rfl, h.symm⟩
  | some refusal => simp [hrefusal] at h

/-- What is recorded goes to a file that could be opened, in directories that could be made. -/
lemma record_ok {depth : Nat} (h : record now depth p bytes fs = (after, .ok ())) : ∃ made place opened,
    makeDirectories now depth p.parent fs = (made, .ok ()) ∧
      openFile now p made = .ok (place, opened) ∧ after = extend now place bytes opened := by
  rw [record] at h
  rcases hmade : makeDirectories now depth p.parent fs with ⟨made, outcome⟩
  rw [hmade] at h
  cases outcome with
  | error e => simp at h
  | ok _ =>
    cases hopen : openFile now p made with
    | error e => simp [hopen] at h
    | ok opened =>
      simp only [hopen] at h
      exact ⟨made, opened.1, opened.2, rfl, hopen, (append_ok h).2⟩

lemma record_child {depth : Nat} (h : record now depth (p.child name) bytes fs = (after, .ok ()))
    (hname : name ≠ "..") :
    ∃ made directory, makeDirectories now depth p fs = (made, .ok ()) ∧
      checkPath (p.child name) = .ok () ∧ made.IsDirectoryAt p directory ∧
      byteLength name ≤ maxNameLength ∧
      (made.IsFree (directory ++ [name]) → after.IsDirectoryAt p directory ∧
        ∀ place, after.content? place = if place = directory ++ [name] then
          some (.file (made.bytesAt (directory ++ [name]) ++ bytes)) else made.content? place) := by
  obtain ⟨made, place, opened, hmake, hopen, rfl⟩ := record_ok h
  rw [parent_child] at hmake
  obtain ⟨hcheck, hfollow⟩ := follow_of_locate (locate_openFile hopen)
  rw [start_child, parts_child] at hfollow
  obtain ⟨directory, hdirectory, hcontent, hlength⟩ := follow_parent hfollow hname
  refine ⟨made, directory, hmake, hcheck, ⟨hdirectory, hcontent⟩, hlength, fun hfree => ?_⟩
  have hchild := follow_child hdirectory hcontent hname hlength hfree.ne_link
  rw [hchild] at hfollow
  obtain rfl : directory ++ [name] = place := by simpa using hfollow
  obtain ⟨hkept, hafter⟩ := extend_openFile hopen hfree bytes
  exact ⟨hkept.isDirectoryAt ⟨hdirectory, hcontent⟩, hafter⟩

/-! ### Looking for a file in a directory -/

lemma locate_child (h : fs.IsDirectoryAt p directory) (hcheck : checkPath (p.child name) = .ok ())
    (hname : name ≠ "..") (hlength : byteLength name ≤ maxNameLength)
    (hfree : fs.IsFree (directory ++ [name])) :
    fs.locate true (p.child name) = .ok (directory ++ [name]) := by
  have hchild := follow_child h.1 h.2 hname hlength hfree.ne_link
  rw [locate, hcheck, start_child, parts_child, hchild]
  rfl

lemma isFile_of_locate (h : fs.locate true p = .ok place) :
    fs.isFile p = .ok ((fs.content? place).any Content.isFile) := by
  rw [isFile, isAt, contentAt, h]
  cases hcontent : fs.content? place <;> simp [Except.bind, hcontent]

lemma read_of_locate (h : fs.locate true p = .ok place) (hcontent : fs.content? place = some (.file bytes)) :
    fs.read p = .ok bytes := by
  rw [read, contentAt, h]
  simp [Except.bind, hcontent]

/-- What stands before the last name in the text of a path. -/
def stemText (p : Path) : Text :=
  List.replicate p.slashes (CodePoint.ofChar '/') ++ p.parts.flatMap fun part => part ++ Text.ofString "/"

lemma join_append_singleton (separator : Text) (parts : List Text) (last : Text) :
    Text.join separator (parts ++ [last]) = (parts.flatMap fun part => part ++ separator) ++ last := by
  induction parts with
  | nil => simp [Text.join]
  | cons part parts ih =>
    cases parts with
    | nil => simp [Text.join, List.intercalate]
    | cons next parts =>
      simp only [Text.join, List.cons_append, List.intercalate_cons_cons] at ih ⊢
      rw [ih]
      simp

lemma toText_child (p : Path) (name : Text) : (p.child name).toText = stemText p ++ name := by
  rw [Path.toText, if_neg (by simp), parts_child, join_append_singleton, ← List.append_assoc]
  rfl

lemma checkPath_eq_ok_iff : checkPath p = .ok () ↔ Utf8.encodeError? Utf8.isStrayByte 0 p.toText = none ∧
    (∀ c ∈ p.toText, c.val ≠ 0) ∧ byteLength p.toText ≤ maxPathLength := by
  rw [checkPath]
  cases hflaw : Utf8.encodeError? Utf8.isStrayByte 0 p.toText with
  | some flaw => simp
  | none =>
    dsimp only
    by_cases hnull : (p.toText.any fun c => decide (c.val = 0)) = true
    · rw [if_pos hnull]
      simp only [List.any_eq_true, decide_eq_true_eq] at hnull
      obtain ⟨c, hc, hzero⟩ := hnull
      simp only [reduceCtorEq, true_and, false_iff, not_and]
      exact fun h => absurd hzero (h c hc)
    · rw [if_neg hnull]
      simp only [List.any_eq_true, decide_eq_true_eq, not_exists, not_and] at hnull
      by_cases hlong : maxPathLength < byteLength p.toText
      · rw [if_pos hlong]
        simp [hlong]
      · rw [if_neg hlong]
        simp only [true_and, true_iff]
        exact ⟨hnull, not_lt.mp hlong⟩

lemma byteLength_le_of_isFile {b : Bool} (h : fs.isFile p = .ok b)
    (hflaw : Utf8.encodeError? Utf8.isStrayByte 0 p.toText = none) (hnull : ∀ c ∈ p.toText, c.val ≠ 0) :
    byteLength p.toText ≤ maxPathLength := by
  by_contra hlong
  have hany : ¬ (p.toText.any fun c => decide (c.val = 0)) = true := by
    simpa only [List.any_eq_true, decide_eq_true_eq, not_exists, not_and] using hnull
  have hcheck : checkPath p = .error (.refused .nameTooLong p) := by
    rw [checkPath, hflaw]
    dsimp only
    rw [if_neg hany, if_pos (not_le.mp hlong)]
  rw [isFile, isAt, contentAt, locate, hcheck] at h
  simp [Except.bind] at h

/-- Where one name can stand, another one of plain signs can stand too, unless that makes the path too
long to be looked up. -/
lemma checkPath_child {other : Text} (h : checkPath (p.child name) = .ok ())
    (hother : other.IsVisible) {b : Bool} (hlookup : fs.isFile (p.child other) = .ok b) :
    checkPath (p.child other) = .ok () := by
  have hplain : ∀ c ∈ other, (c.isSurrogate && !Utf8.isStrayByte c) = false ∧ c.val ≠ 0 := by
    intro c hc
    have := hother c hc
    simp only [CodePoint.IsVisible] at this
    refine ⟨?_, by omega⟩
    simp only [CodePoint.isSurrogate, Bool.and_eq_false_iff, decide_eq_false_iff_not]
    omega
  rw [checkPath_eq_ok_iff] at h ⊢
  obtain ⟨hflaw, hnull, -⟩ := h
  rw [Utf8.encodeError_eq_none_iff, toText_child, List.forall_mem_append] at hflaw
  rw [toText_child, List.forall_mem_append] at hnull
  have hflaw' : Utf8.encodeError? Utf8.isStrayByte 0 (p.child other).toText = none := by
    rw [Utf8.encodeError_eq_none_iff, toText_child, List.forall_mem_append]
    exact ⟨hflaw.1, fun c hc => (hplain c hc).1⟩
  have hnull' : ∀ c ∈ (p.child other).toText, c.val ≠ 0 := by
    rw [toText_child, List.forall_mem_append]
    exact ⟨hnull.1, fun c hc => (hplain c hc).2⟩
  exact ⟨hflaw', hnull', byteLength_le_of_isFile hlookup hflaw' hnull'⟩

end CommandWrap.FileSystem

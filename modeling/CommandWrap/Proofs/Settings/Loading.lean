import Mathlib
import CommandWrap.Workspace
import CommandWrap.Proofs.Action
import CommandWrap.Proofs.Settings.Normal

/-! Loading the settings from a file: a text that is no settings is given up for the defaults, with a
warning. Only a nesting that is too deep, and a log in a home that nobody knows, are not recovered
from. -/
namespace CommandWrap

/-! ### Paths below a home -/

/-- Nobody knows where the user is at home, or the home begins with a tilde itself. The own one needs no
name, and what cannot be a name is not looked for. -/
def Homes.IsUnknown (homes : Homes) (name : Text) : Prop :=
  if name = [] then homes.own.head? = some (CodePoint.ofChar '~')
  else Utf8.encodeError? Utf8.isStrayByte 0 name = none ∧ (∀ c ∈ name, c.val ≠ 0) ∧
    ∀ home, homes.of name = some home → home.head? = some (CodePoint.ofChar '~')

/-- The path begins with a tilde and the name of a user whose home is not known. -/
def Path.InUnknownHome (homes : Homes) (p : Path) : Prop :=
  p.slashes = 0 ∧ ∃ first rest, p.parts = first :: rest ∧ first.head? = some (CodePoint.ofChar '~') ∧
    homes.IsUnknown (first.drop 1)

lemma Homes.isUnknown_iff {homes : Homes} {name : Text} : homes.IsUnknown name ↔
    homes.find name = .error .unknown ∨
      ∃ home, homes.find name = .ok home ∧ home.head? = some (CodePoint.ofChar '~') := by
  rw [IsUnknown, find]
  by_cases hown : name = []
  · simp [hown]
  · rw [if_neg hown, if_neg hown]
    cases Utf8.encodeError? Utf8.isStrayByte 0 name with
    | some error => simp
    | none =>
      have hany : (name.any fun c => decide (c.val = 0)) = true ↔ ¬ ∀ c ∈ name, c.val ≠ 0 := by simp
      dsimp only
      simp only [hany]
      split_ifs with hnull
      · rw [true_and, and_iff_right hnull]
        cases homes.of name <;> simp
      · simp [hnull]

lemma Path.expandHome_eq_unknown_iff {homes : Homes} {p : Path} :
    p.expandHome homes = .error .unknown ↔ p.InUnknownHome homes := by
  obtain ⟨slashes, parts⟩ := p
  cases slashes with
  | succ n => simp [expandHome, InUnknownHome]
  | zero =>
    cases parts with
    | nil => simp [expandHome, InUnknownHome]
    | cons first rest =>
      have hiff : InUnknownHome homes ⟨0, first :: rest⟩ ↔
          first.head? = some (CodePoint.ofChar '~') ∧ homes.IsUnknown (first.drop 1) := by
        refine ⟨?_, fun h => ⟨rfl, first, rest, rfl, h⟩⟩
        rintro ⟨-, _, _, hparts, h⟩
        obtain ⟨rfl, rfl⟩ := List.cons.inj hparts
        exact h
      rw [hiff, Homes.isUnknown_iff]
      simp only [expandHome]
      split_ifs with hplain
      · have htilde : ¬ first.head? = some (CodePoint.ofChar '~') := hplain
        simp [htilde]
      · have htilde : first.head? = some (CodePoint.ofChar '~') := not_not.mp hplain
        rw [and_iff_right htilde]
        cases homes.find (first.drop 1) with
        | error error => simp [Except.bind]
        | ok home =>
          simp only [Except.bind]
          split_ifs with hhome
          · exact iff_of_true rfl (.inr ⟨home, rfl, hhome⟩)
          · have hhome : ¬ home.head? = some (CodePoint.ofChar '~') := hhome
            simp [hhome]

namespace Settings

/-! ### Texts of settings -/

/-- The settings name a log in a home that is not known. -/
def LogInUnknownHome (homes : Homes) (members : Entries Json) : Prop :=
  ∃ t, members.get? "log" = some (.string t) ∧ t.isBlank = false ∧
    (Path.ofText t.trim).InUnknownHome homes

lemma logField_eq_unknown_iff {homes : Homes} {members : Entries Json} :
    logField homes members = .error (.home .unknown) ↔ LogInUnknownHome homes members := by
  rw [logField]
  cases hget : members.get? "log" with
  | none => simp [LogInUnknownHome, hget]
  | some value =>
    cases value with
    | string t =>
      dsimp only
      by_cases hblank : t.isBlank = true
      · simp [LogInUnknownHome, hget, hblank]
      · have hiff : LogInUnknownHome homes members ↔
            (Path.ofText t.trim).expandHome homes = .error .unknown := by
          rw [Path.expandHome_eq_unknown_iff]
          simp [LogInUnknownHome, hget, hblank]
        rw [if_neg hblank, hiff]
        cases (Path.ofText t.trim).expandHome homes <;> simp
    | _ => simp [LogInUnknownHome, hget]

lemma logField_error {homes : Homes} {members : Entries Json} {error : ParseError}
    (h : logField homes members = .error error) : ∃ e, error = .home e := by
  rw [logField] at h
  split at h
  · split_ifs at h
    split at h
    · cases h
    · exact ⟨_, (Except.error.inj h).symm⟩
  · cases h

/-- A text that is no settings and that nothing is loaded in the place of. -/
def IsUnrecoverable (limit : Json.Limit) (homes : Homes) (text : Text) : Prop :=
  (∃ innermost, Json.parse limit text = .error (.nestedTooDeep innermost)) ∨
    ∃ members, Json.parse limit text = .ok (.object members) ∧ LogInUnknownHome homes members

/-- A text that is refused can be recovered from, except for these two reasons. -/
lemma isBadSettings_of_parse {limit : Json.Limit} {homes : Homes} {text : Text} {error : ParseError}
    (h : parse limit homes text = .error error) :
    (Fault.settings error).isBadSettings = false ↔ IsUnrecoverable limit homes text := by
  rw [parse] at h
  cases hparse : Json.parse limit text with
  | error e =>
    obtain rfl : .json e = error := by simpa [hparse] using h
    cases e <;> simp [IsUnrecoverable, hparse, Fault.isBadSettings]
  | ok v =>
    cases v with
    | object members =>
      simp only [hparse, ofMembers] at h
      have hunknown : _ ↔ LogInUnknownHome homes members := logField_eq_unknown_iff
      cases hlog : logField homes members with
      | ok log => simp [hlog, Except.map] at h
      | error e =>
        obtain rfl : e = error := by simpa [hlog, Except.map] using h
        obtain ⟨e, rfl⟩ := logField_error hlog
        rw [hlog] at hunknown
        simp only [IsUnrecoverable, hparse, reduceCtorEq, exists_false, false_or, Except.ok.injEq,
          Json.object.injEq, exists_eq_left', ← hunknown]
        cases e <;> simp [Fault.isBadSettings]
    | _ =>
      simp only [hparse, Except.error.injEq] at h
      subst h
      simp [IsUnrecoverable, hparse, Fault.isBadSettings]

lemma not_isUnrecoverable_of_parse {limit : Json.Limit} {homes : Homes} {text : Text}
    {settings : Settings} (h : parse limit homes text = .ok settings) :
    ¬ IsUnrecoverable limit homes text := by
  obtain ⟨members, hparse, hmembers⟩ := members_of_parse h
  obtain ⟨log, hlog, -⟩ := map_eq_ok hmembers
  rintro (⟨innermost, hdeep⟩ | ⟨others, hobject, hunknown⟩)
  · simp [hdeep] at hparse
  · obtain rfl : members = others := by simpa [hparse] using hobject
    simp [logField_eq_unknown_iff.mpr hunknown] at hlog

end Settings

/-! ### Files of settings -/

namespace FileSystem

lemma isFile_of_read {files : FileSystem} {p : Path} {bytes : Bytes} (h : files.read p = .ok bytes) :
    files.isFile p = .ok true := by
  obtain ⟨content, hcontent, h⟩ := bind_eq_ok h
  cases content with
  | file _ => simp [isFile, isAt, hcontent, Content.isFile]
  | directory => simp at h
  | link _ => simp at h

lemma readText_error {files : FileSystem} {p : Path} {bytes : Bytes} {fault : Fault}
    (hread : files.read p = .ok bytes) (h : files.readText p = .error fault) :
    fault.isBadSettings = true := by
  rw [readText, hread] at h
  cases hdecode : Utf8.decode bytes with
  | error e =>
    simp only [Except.mapError, bind, Except.bind, hdecode] at h
    rw [← Except.error.inj h]
    rfl
  | ok text =>
    simp only [Except.mapError, bind, Except.bind, hdecode] at h
    cases h

end FileSystem

namespace SettingsFile

lemma read_of_file {limit : Json.Limit} {homes : Homes} {p : Path} {files : FileSystem}
    (h : files.isFile p = .ok true) :
    read limit homes p files = match (files.readText p).bind fun text =>
        (Settings.parse limit homes text).mapError Fault.settings with
      | .ok settings => .ok (loaded settings)
      | .error fault => if fault.isBadSettings then .ok (invalid fault.message) else .error fault := by
  rw [read, h]
  simp only [Except.mapError, bind, Except.bind, if_true]
  rfl

end SettingsFile

namespace Workspace

open CommandWrap.Action

/-- The workspace once it was said that a settings file cannot be used. -/
def warned (w : Workspace) (p : Path) (reason : Text) : Workspace :=
  { w with errorOutput :=
      w.errorOutput ++ ("Warning: Failed to load " ++ p.toText ++ ": " ++ reason) ++ "\n" }

lemma outcome_loadSettings (p : Path) (w : Workspace) :
    (loadSettings p).outcome w = match SettingsFile.read w.limits.settings w.homes p w.files with
      | .ok (.invalid reason) => (.ok {}, w.warned p reason)
      | .ok file => (.ok file.settings, w)
      | .error fault => (.error fault, w) := by
  have hfile : (settingsFile p).outcome w = (SettingsFile.read w.limits.settings w.homes p w.files, w) := by
    rw [settingsFile, outcome_bind, outcome_get]
    exact outcome_lift _ _
  rw [loadSettings, outcome_bind, hfile]
  cases SettingsFile.read w.limits.settings w.homes p w.files with
  | error fault => rfl
  | ok file => cases file <;> rfl

/-- Whatever bytes stand in the settings file: settings are loaded as they are; from other contents the
defaults are, with one warning, unless they nest too deep or name a log in a home that is not known.
These two are faults. -/
theorem loadSettings_of_read {w : Workspace} {p : Path} {bytes : Bytes}
    (hread : w.files.read p = .ok bytes) :
    (∀ text settings, w.files.readText p = .ok text →
      Settings.parse w.limits.settings w.homes text = .ok settings →
      (loadSettings p).outcome w = (.ok settings, w)) ∧
    ((∀ text settings, w.files.readText p = .ok text →
        Settings.parse w.limits.settings w.homes text ≠ .ok settings) →
      (∀ text, w.files.readText p = .ok text → ¬ Settings.IsUnrecoverable w.limits.settings w.homes text) →
      ∃ reason, (loadSettings p).outcome w = (.ok {}, w.warned p reason)) ∧
    ((∃ fault, (loadSettings p).outcome w = (.error fault, w)) ↔
      ∃ text, w.files.readText p = .ok text ∧ Settings.IsUnrecoverable w.limits.settings w.homes text) := by
  rw [outcome_loadSettings, SettingsFile.read_of_file (FileSystem.isFile_of_read hread)]
  cases htext : w.files.readText p with
  | error fault =>
    have hbad := FileSystem.readText_error hread htext
    simp [Except.bind, hbad]
  | ok text =>
    cases hparse : Settings.parse w.limits.settings w.homes text with
    | ok settings =>
      have hfine := Settings.not_isUnrecoverable_of_parse hparse
      simp only [Except.bind, hparse, Except.mapError]
      refine ⟨fun t taken ht htaken => ?_, fun hnone => absurd hparse (hnone text settings rfl), ?_⟩
      · obtain rfl := Except.ok.inj ht
        obtain rfl := Except.ok.inj (hparse.symm.trans htaken)
        rfl
      · simp [hfine]
    | error error =>
      have hnone : ∀ t taken, Except.ok text = (Except.ok t : Except Fault Text) →
          Settings.parse w.limits.settings w.homes t ≠ .ok taken := by
        rintro t taken ht htaken
        obtain rfl := Except.ok.inj ht
        simp [hparse] at htaken
      have hiff := Settings.isBadSettings_of_parse hparse
      simp only [Except.bind, hparse, Except.mapError]
      refine ⟨fun t taken ht htaken => absurd htaken (hnone t taken ht), ?_, ?_⟩
      · intro _ hfine
        have hbad : (Fault.settings error).isBadSettings = true := by
          simpa using mt hiff.mp (hfine text rfl)
        exact ⟨(Fault.settings error).message, by simp [hbad]⟩
      · cases hbad : (Fault.settings error).isBadSettings with
        | true => simp [mt hiff.mpr (by simp [hbad])]
        | false => simp [hiff.mp hbad]

/-- Settings whose log is below the home of somebody unknown. -/
def strangeSettings : Text := "\x7b\"log\": \"~x/y\"\x7d"

def strangePath : Path := ⟨1, ["c"]⟩

def strangeWorkspace : Workspace :=
  { files := { items := [(["c"], ⟨.file (Utf8.encode strangeSettings), 0⟩)] }
    homes := { own := "/h" }, stateDirectory := ⟨1, ["h"]⟩, now := ⟨⟨2026, 10, 17⟩, 0, some 0⟩ }

set_option maxRecDepth 8000 in
theorem loadSettings_of_read_strange :
    strangeWorkspace.files.read strangePath = .ok (Utf8.encode strangeSettings) ∧
      ∃ fault, (loadSettings strangePath).outcome strangeWorkspace = (.error fault, strangeWorkspace) := by
  have hread : strangeWorkspace.files.read strangePath = .ok (Utf8.encode strangeSettings) := by cbv
  have htext : strangeWorkspace.files.readText strangePath = .ok strangeSettings := by cbv
  have hparse : Json.parse {} strangeSettings = .ok (.object [("log", .string "~x/y")]) := by cbv
  have hunknown : (Path.ofText (Text.ofString "~x/y").trim).InUnknownHome strangeWorkspace.homes :=
    Path.expandHome_eq_unknown_iff.mp (by decide)
  refine ⟨hread, (loadSettings_of_read hread).2.2.mpr ⟨strangeSettings, htext, .inr ⟨_, hparse, ?_⟩⟩⟩
  exact ⟨Text.ofString "~x/y", rfl, by decide, hunknown⟩

end Workspace
end CommandWrap

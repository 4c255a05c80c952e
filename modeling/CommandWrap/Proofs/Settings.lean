import Mathlib
import CommandWrap.Settings.File
import CommandWrap.Proofs.Json.Reading
import CommandWrap.Proofs.Settings.Normal
import CommandWrap.Proofs.Text.Utf8

/-! The aliases of settings are joined texts, wherever the settings come from. -/
namespace CommandWrap

lemma Text.isScalar_unifyLineEnds {t : Text} (ht : t.IsScalar) : t.unifyLineEnds.IsScalar := by
  induction t with
  | nil => exact ht
  | cons c t ih =>
    obtain ⟨hc, ht⟩ := isScalar_cons.mp ht
    rw [unifyLineEnds]
    split_ifs
    · exact ih ht
    · exact isScalar_cons.mpr ⟨by decide, ih ht⟩
    · exact isScalar_cons.mpr ⟨hc, ih ht⟩

lemma FileSystem.isScalar_readText {files : FileSystem} {p : Path} {t : Text}
    (h : files.readText p = .ok t) : t.IsScalar := by
  rw [readText] at h
  obtain ⟨bytes, -, h⟩ := bind_eq_ok h
  obtain ⟨text, hdecode, h⟩ := bind_eq_ok h
  obtain rfl : text.unifyLineEnds = t := Except.ok.inj h
  exact Text.isScalar_unifyLineEnds (Utf8.decode_isScalar (mapError_eq_ok hdecode))

namespace Settings

lemma readable_of_get? {members : Entries Json} {name : Text} {value : Json}
    (h : Json.ThroughoutMembers Json.IsReadable members) (hvalue : members.get? name = some value) :
    Json.Throughout Json.IsReadable value :=
  Json.throughoutMembers_iff.mp h _ (Entries.mem_of_get? hvalue)

lemma joined_aliasesField {members : Entries Json} (h : Json.ThroughoutMembers Json.IsReadable members) :
    ∀ entry ∈ aliasesField members, entry.1.Joined ∧ entry.2.Joined := by
  rw [aliasesField]
  split
  · rename_i entries hentries
    intro entry hentry
    obtain ⟨member, hmember, halias⟩ := List.mem_filterMap.mp hentry
    obtain ⟨hkey, -, t, ht, -, hreplacement⟩ := aliasOf?_eq_some halias
    obtain ⟨⟨-, hnames⟩, hvalues⟩ := readable_of_get? h hentries
    have hjoined : Json.Throughout Json.IsReadable member.2 :=
      Json.throughoutMembers_iff.mp hvalues member hmember
    rw [ht] at hjoined
    rw [hkey, hreplacement]
    exact ⟨hnames _ (List.mem_map_of_mem hmember), Text.Joined.of_isInfix hjoined (Text.isInfix_trim t)⟩
  · decide

end Settings

end CommandWrap

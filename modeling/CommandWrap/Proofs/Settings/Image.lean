import Mathlib
import CommandWrap.Proofs.Json.RoundTrip
import CommandWrap.Proofs.Settings

/-! The settings that documents hold: whatever is read is in normal form, and normal settings without a
log are read back from the document of their fields. -/
namespace CommandWrap.Settings

/-- Patterns are trimmed, not blank and distinct. An alias replaces a single word, one alias for each, by a
trimmed text that is not blank. -/
structure IsNormal (settings : Settings) : Prop where
  patterns : ∀ pattern ∈ settings.patterns, pattern ≠ [] ∧ pattern.trim = pattern
  distinctPatterns : settings.patterns.Nodup
  keys : ∀ key ∈ Entries.keys settings.aliases, key.IsWord
  distinctKeys : (Entries.keys settings.aliases).Nodup
  replacements : settings.HasTrimmedAliases

/-- All texts in the settings are joined. -/
structure IsJoined (settings : Settings) : Prop where
  patterns : ∀ pattern ∈ settings.patterns, pattern.Joined
  keys : ∀ key ∈ Entries.keys settings.aliases, key.Joined
  replacements : ∀ entry ∈ settings.aliases, entry.2.Joined

/-- The fields of settings without a log, as they stand in a document. -/
def fields (settings : Settings) : Entries Json :=
  [("enabled", .bool settings.enabled),
    ("patterns", .array (settings.patterns.map .string)),
    ("aliases", .object (settings.aliases.map fun (key, replacement) => (key, .string replacement))),
    ("auto_approve", .bool settings.autoApprove),
    ("log", .null),
    ("log_full", .bool settings.logFull)]

variable {limit : Json.Limit} {homes : Homes} {text : Text} {settings : Settings}

/-! ### Patterns -/

section Patterns

variable {values : List Json} {t : Text}

lemma patternsOf_skip (h : t.trim = [] ∨ t.trim ∈ patternsOf values) :
    patternsOf (values ++ [.string t]) = patternsOf values := by
  rw [patternsOf, List.foldl_append]
  exact if_pos h

lemma patternsOf_add (h : ¬ (t.trim = [] ∨ t.trim ∈ patternsOf values)) :
    patternsOf (values ++ [.string t]) = patternsOf values ++ [t.trim] := by
  rw [patternsOf, List.foldl_append]
  exact if_neg h

lemma patternsOf_other {value : Json} (h : ∀ t, value ≠ .string t) :
    patternsOf (values ++ [value]) = patternsOf values := by
  rw [patternsOf, List.foldl_append]
  cases value with
  | string t => exact absurd rfl (h t)
  | _ => rfl

/-- One more value adds a new pattern, or nothing. -/
lemma patternsOf_concat (values : List Json) (value : Json) :
    patternsOf (values ++ [value]) = patternsOf values ∨
      ∃ t : Text, value = .string t ∧ t.trim ≠ [] ∧ t.trim ∉ patternsOf values ∧
        patternsOf (values ++ [value]) = patternsOf values ++ [t.trim] := by
  by_cases htext : ∃ t, value = .string t
  · obtain ⟨t, rfl⟩ := htext
    by_cases hskip : t.trim = [] ∨ t.trim ∈ patternsOf values
    · exact .inl (patternsOf_skip hskip)
    · obtain ⟨hne, hnew⟩ := not_or.mp hskip
      exact .inr ⟨t, rfl, hne, hnew, patternsOf_add hskip⟩
  · exact .inl (patternsOf_other fun t ht => htext ⟨t, ht⟩)

/-- Trimmed patterns that are not blank, each once. -/
def ArePatterns (patterns : List Text) : Prop :=
  (∀ pattern ∈ patterns, pattern ≠ [] ∧ pattern.trim = pattern) ∧ patterns.Nodup

lemma arePatterns_patternsOf (values : List Json) : ArePatterns (patternsOf values) := by
  induction values using List.reverseRecOn with
  | nil => exact ⟨by simp [patternsOf], List.nodup_nil⟩
  | append_singleton values value ih =>
    rcases patternsOf_concat values value with hsame | ⟨t, -, hne, hnew, hadd⟩
    · rwa [hsame]
    · rw [hadd]
      refine ⟨fun pattern hpattern => ?_, by simpa using ih.2.concat hnew⟩
      rcases List.mem_append.mp hpattern with hpattern | hpattern
      · exact ih.1 pattern hpattern
      · rw [List.mem_singleton.mp hpattern]
        exact ⟨hne, Text.trim_trim t⟩

theorem arePatterns_patternsField (members : Entries Json) : ArePatterns (patternsField members) := by
  rw [patternsField]
  split
  · exact arePatterns_patternsOf _
  · unfold ArePatterns
    decide

lemma mem_patternsOf {pattern : Text} (h : pattern ∈ patternsOf values) :
    ∃ t : Text, .string t ∈ values ∧ pattern = t.trim := by
  induction values using List.reverseRecOn with
  | nil => cases h
  | append_singleton values value ih =>
    have hfront : pattern ∈ patternsOf values →
        ∃ t : Text, .string t ∈ values ++ [value] ∧ pattern = t.trim := by
      intro hpattern
      obtain ⟨t, ht, htrim⟩ := ih hpattern
      exact ⟨t, List.mem_append_left _ ht, htrim⟩
    rcases patternsOf_concat values value with hsame | ⟨t, rfl, -, -, hadd⟩
    · exact hfront (hsame ▸ h)
    · rw [hadd] at h
      rcases List.mem_append.mp h with hpattern | hpattern
      · exact hfront hpattern
      · exact ⟨t, List.mem_append_right _ (List.mem_singleton_self _), List.mem_singleton.mp hpattern⟩

/-- Patterns in normal form are added one after the other. -/
theorem patternsOf_map_string {patterns : List Text} (h : ArePatterns patterns) :
    patternsOf (patterns.map .string) = patterns := by
  induction patterns using List.reverseRecOn with
  | nil => rfl
  | append_singleton patterns pattern ih =>
    obtain ⟨hne, htrim⟩ := h.1 pattern (by simp)
    obtain ⟨hnodup, -, hapart⟩ := List.nodup_append.mp h.2
    have hfront : patternsOf (patterns.map .string) = patterns :=
      ih ⟨fun other hother => h.1 other (List.mem_append_left _ hother), hnodup⟩
    have hnew : ¬ (pattern.trim = [] ∨ pattern.trim ∈ patternsOf (patterns.map .string)) := by
      rw [hfront, htrim]
      exact not_or_intro hne fun hmem => hapart pattern hmem pattern List.mem_cons_self rfl
    rw [List.map_append, List.map_singleton, patternsOf_add hnew, hfront, htrim]

end Patterns

/-! ### Aliases -/

lemma keys_filterMap_aliasOf? (members : Entries Json) :
    (Entries.keys (members.filterMap aliasOf?)).Sublist (Entries.keys members) := by
  induction members with
  | nil => exact List.Sublist.refl []
  | cons member members ih =>
    rw [Entries.keys_cons]
    cases halias : aliasOf? member with
    | none =>
      rw [List.filterMap_cons_none halias]
      exact ih.cons _
    | some entry =>
      rw [List.filterMap_cons_some halias, Entries.keys_cons, (aliasOf?_eq_some halias).1]
      exact ih.cons_cons _

lemma aliasOf?_string {key replacement : Text} (hkey : key.IsWord) (hne : replacement ≠ [])
    (htrim : replacement.trim = replacement) :
    aliasOf? (key, .string replacement) = some (key, replacement) := by
  have hblank : ¬ replacement.isBlank = true := by
    rwa [← Text.trim_eq_nil_iff, htrim]
  have hplain : ¬ key.any CodePoint.isBlank = true := by
    rw [Bool.not_eq_true, List.any_eq_false]
    exact fun c hc => by simp [hkey.2 c hc]
  rw [aliasOf?, if_neg (not_or_intro hblank (not_or_intro hkey.1 hplain)), htrim]

theorem filterMap_aliasOf?_map_string (h : settings.IsNormal) :
    (settings.aliases.map fun (key, replacement) => (key, Json.string replacement)).filterMap aliasOf? =
      settings.aliases := by
  rw [List.filterMap_map]
  conv_rhs => rw [← List.filterMap_some (l := settings.aliases)]
  refine List.filterMap_congr fun entry hentry => ?_
  obtain ⟨hne, htrim⟩ := h.replacements entry hentry
  exact aliasOf?_string (h.keys entry.1 (List.mem_map_of_mem hentry)) hne htrim

/-! ### What is read -/

lemma keys_aliasesField {members : Entries Json} (h : Json.parse limit text = .ok (.object members)) :
    (∀ key ∈ Entries.keys (aliasesField members), key.IsWord) ∧
      (Entries.keys (aliasesField members)).Nodup := by
  rw [aliasesField]
  split
  · rename_i entries hentries
    constructor
    · intro key hkey
      obtain ⟨entry, hentry, rfl⟩ := List.mem_map.mp hkey
      obtain ⟨member, -, halias⟩ := List.mem_filterMap.mp hentry
      exact (aliasOf?_eq_some halias).2.1
    · have hnames := (Json.nodup_keys_of_parse h).2 _ entries (Entries.mem_of_get? hentries)
      exact hnames.sublist (keys_filterMap_aliasOf? entries)
  · unfold Text.IsWord
    decide

/-- Whatever text the settings are read from, they are in normal form. -/
theorem isNormal_parse (h : parse limit homes text = .ok settings) : settings.IsNormal := by
  have hreplacements := hasTrimmedAliases_parse h
  obtain ⟨members, hparse, hmembers⟩ := members_of_parse h
  obtain ⟨log, -, rfl⟩ := map_eq_ok hmembers
  obtain ⟨hpatterns, hdistinct⟩ := arePatterns_patternsField members
  obtain ⟨hkeys, hnodup⟩ := keys_aliasesField hparse
  exact ⟨hpatterns, hdistinct, hkeys, hnodup, hreplacements⟩

lemma joined_patternsField {members : Entries Json} (h : Json.ThroughoutMembers Json.IsReadable members) :
    ∀ pattern ∈ patternsField members, pattern.Joined := by
  rw [patternsField]
  split
  · rename_i values hvalues
    intro pattern hpattern
    obtain ⟨t, ht, rfl⟩ := mem_patternsOf hpattern
    have hjoined : t.Joined := Json.throughoutItems_iff.mp (readable_of_get? h hvalues).2 _ ht
    exact hjoined.of_isInfix (Text.isInfix_trim t)
  · decide

/-- A document of characters holds joined texts only. -/
theorem isJoined_parse (htext : text.IsScalar) (h : parse limit homes text = .ok settings) :
    settings.IsJoined := by
  obtain ⟨members, hparse, hmembers⟩ := members_of_parse h
  obtain ⟨log, -, rfl⟩ := map_eq_ok hmembers
  have hreads := (Json.parse_reads htext hparse).2
  have haliases := joined_aliasesField hreads
  refine ⟨joined_patternsField hreads, fun key hkey => ?_, fun entry hentry => (haliases entry hentry).2⟩
  obtain ⟨entry, hentry, rfl⟩ := List.mem_map.mp hkey
  exact (haliases entry hentry).1

/-! ### What is read back -/

lemma names_fields : (Entries.keys settings.fields).Nodup ∧
    ∀ name ∈ Entries.keys settings.fields, name.Joined := by
  have hnames : ([("enabled"), ("patterns"), ("aliases"), ("auto_approve"), ("log"), ("log_full")] :
      List Text).Nodup ∧ ∀ name ∈ ([("enabled"), ("patterns"), ("aliases"), ("auto_approve"), ("log"),
      ("log_full")] : List Text), name.Joined := by decide
  exact hnames

lemma keys_map_string (aliases : Entries Text) :
    Entries.keys (aliases.map fun (key, replacement) => (key, Json.string replacement)) =
      Entries.keys aliases := by
  simp [Entries.keys, Function.comp_def]

/-- Every field can be written and read back. -/
lemma isRereadable_fields (hnormal : settings.IsNormal) (hjoined : settings.IsJoined) :
    ∀ member ∈ settings.fields, Json.IsRereadable 1 member.2 := by
  have hpatterns : ∀ v ∈ settings.patterns.map Json.string, Json.IsRereadable 0 v := by
    intro v hv
    obtain ⟨pattern, hpattern, rfl⟩ := List.mem_map.mp hv
    exact .string (hjoined.patterns pattern hpattern)
  have haliases : ∀ member ∈ settings.aliases.map fun (key, replacement) => (key, Json.string replacement),
      Json.IsRereadable 0 member.2 := by
    intro member hmember
    obtain ⟨entry, hentry, rfl⟩ := List.mem_map.mp hmember
    exact .string (hjoined.replacements entry hentry)
  have hkeys := keys_map_string settings.aliases
  intro member hmember
  simp only [fields, List.mem_cons, List.not_mem_nil, or_false] at hmember
  rcases hmember with rfl | rfl | rfl | rfl | rfl | rfl
  · exact .bool _
  · exact .array hpatterns
  · exact .object (hkeys ▸ hnormal.distinctKeys) (hkeys ▸ hjoined.keys) haliases
  · exact .bool _
  · exact .null
  · exact .bool _

/-- The fields are found again in whatever order a document holds them. -/
lemma ofMembers_fields (hnormal : settings.IsNormal) (hlog : settings.log = none)
    {members : Entries Json} (hmembers : members.Perm settings.fields) :
    ofMembers homes members = .ok settings := by
  have hnodup : (Entries.keys members).Nodup := (hmembers.map Prod.fst).nodup_iff.mpr names_fields.1
  have hget : ∀ {name : Text} {value : Json}, (name, value) ∈ settings.fields →
      members.get? name = some value := fun hfield =>
    Entries.get?_of_mem hnodup (hmembers.mem_iff.mpr hfield)
  have henabled : members.get? "enabled" = some (.bool settings.enabled) := hget (by simp [fields])
  have hpatterns : members.get? "patterns" = some (.array (settings.patterns.map .string)) :=
    hget (by simp [fields])
  have haliases : members.get? "aliases" = some (.object
      (settings.aliases.map fun (key, replacement) => (key, .string replacement))) :=
    hget (by simp [fields])
  have happrove : members.get? "auto_approve" = some (.bool settings.autoApprove) := hget (by simp [fields])
  have hnone : members.get? "log" = some .null := hget (by simp [fields])
  have hfull : members.get? "log_full" = some (.bool settings.logFull) := hget (by simp [fields])
  have hfield : logField homes members = .ok settings.log := by
    rw [logField, hnone, hlog]
  rw [ofMembers, hfield, boolField, henabled, boolField, happrove, boolField, hfull, patternsField,
    hpatterns, aliasesField, haliases]
  dsimp only
  rw [patternsOf_map_string ⟨hnormal.patterns, hnormal.distinctPatterns⟩,
    filterMap_aliasOf?_map_string hnormal]
  rfl

theorem parse_render_fields (hnormal : settings.IsNormal) (hjoined : settings.IsJoined)
    (hlog : settings.log = none) {members : Entries Json} (hmembers : members.Perm settings.fields) :
    parse limit homes (Json.object members).render = .ok settings := by
  have hkeys := hmembers.map Prod.fst
  have hobject : Json.IsRereadable 2 (.object members) :=
    .object (hkeys.nodup_iff.mpr names_fields.1)
      (fun name hname => names_fields.2 name (hkeys.mem_iff.mp hname))
      fun member hmember => isRereadable_fields hnormal hjoined member (hmembers.mem_iff.mp hmember)
  rw [parse, hobject.parse_render (by decide)]
  exact ofMembers_fields hnormal hlog hmembers

/-- Reading yields settings in normal form and, but for a log, nothing less: normal settings are read back
from a document that holds their fields. So what was read once is read again from its own fields. -/
theorem parse_image (limit : Json.Limit) (homes : Homes) :
    (∀ text settings, parse limit homes text = .ok settings →
      settings.IsNormal ∧ (text.IsScalar → settings.IsJoined)) ∧
    (∀ settings : Settings, settings.IsNormal → settings.IsJoined → settings.log = none →
      ∀ members : Entries Json, members.Perm settings.fields →
        parse limit homes (Json.object members).render = .ok settings) ∧
    ∀ text settings, parse limit homes text = .ok settings → settings.IsJoined → settings.log = none →
      parse limit homes (Json.object settings.fields).render = .ok settings := by
  refine ⟨fun text settings h => ⟨isNormal_parse h, fun htext => isJoined_parse htext h⟩, ?_, ?_⟩
  · intro settings hnormal hjoined hlog members hmembers
    exact parse_render_fields hnormal hjoined hlog hmembers
  · intro text settings h hjoined hlog
    exact parse_render_fields (isNormal_parse h) hjoined hlog (List.Perm.refl _)

/-- A document with entries that are blank, come twice, or are no texts. -/
def untidyText : Text :=
  "\x7b\"patterns\": [\" ls \", \"ls\", 7, \"\"], \"aliases\": \x7b\"a b\": \"x\", \"ls\": \" rtk ls\"\x7d\x7d"

/-- What is read from it. -/
def tidySettings : Settings := { patterns := ["ls"], aliases := [("ls", "rtk ls")] }

set_option maxRecDepth 8000 in
/-- The settings of an untidy document are read again from their own fields, in any order. -/
theorem parse_image_untidy :
    untidyText.IsScalar ∧ parse {} { own := "/h" } untidyText = .ok tidySettings ∧ tidySettings.log = none ∧
      tidySettings.IsNormal ∧ tidySettings.IsJoined ∧
      parse {} { own := "/h" } (Json.object tidySettings.fields.reverse).render = .ok tidySettings ∧
      parse {} { own := "/h" } (Json.object tidySettings.fields).render = .ok tidySettings := by
  obtain ⟨hnormal, hback, hagain⟩ := parse_image {} { own := "/h" }
  have htext : untidyText.IsScalar := by decide
  have hread : parse {} { own := "/h" } untidyText = .ok tidySettings := by cbv
  have htidy := hnormal _ _ hread
  exact ⟨htext, hread, rfl, htidy.1, htidy.2 htext,
    hback _ htidy.1 (htidy.2 htext) rfl _ (List.reverse_perm _), hagain _ _ hread (htidy.2 htext) rfl⟩

end CommandWrap.Settings

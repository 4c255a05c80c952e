import Mathlib
import CommandWrap.Proofs.Json.RoundTrip
import CommandWrap.Proofs.Settings

/-! Documents with fields that are not settings. What cannot be used is passed over: the settings are those
of the document without it, and each of them goes by the value under its own name alone. -/
namespace CommandWrap.Settings

/-! ### Fields and their values -/

/-- The fields of a document that are settings. -/
inductive Field
  | enabled
  | patterns
  | aliases
  | autoApprove
  | log
  | logFull
deriving DecidableEq

/-- A pattern is a text that is not blank. -/
def isPattern : Json → Bool
  | .string t => !t.isBlank
  | _ => false

/-- An alias stands for a key that is not blank and has no blank in it, and is a text that is not
blank. -/
def isAlias : Text × Json → Bool
  | (key, .string t) => !t.isBlank && !key.isBlank && !key.any CodePoint.isBlank
  | _ => false

namespace Field

def all : List Field := [enabled, patterns, aliases, autoApprove, log, logFull]

def name : Field → Text
  | enabled => "enabled"
  | patterns => "patterns"
  | aliases => "aliases"
  | autoApprove => "auto_approve"
  | log => "log"
  | logFull => "log_full"

def ofName? (name : Text) : Option Field := all.find? fun field => field.name = name

/-- What can be used of a value: nothing if it is of the wrong type, and of a list or an object the
entries that are patterns or aliases. -/
def tidy? : Field → Json → Option Json
  | enabled, .bool b | autoApprove, .bool b | logFull, .bool b => some (.bool b)
  | patterns, .array values => some (.array (values.filter isPattern))
  | aliases, .object entries => some (.object (entries.filter isAlias))
  | log, .string t => if t.isBlank then none else some (.string t)
  | _, _ => none

/-- The field is the same in both settings. -/
def Agrees (a b : Settings) : Field → Prop
  | enabled => a.enabled = b.enabled
  | patterns => a.patterns = b.patterns
  | aliases => a.aliases = b.aliases
  | autoApprove => a.autoApprove = b.autoApprove
  | log => a.log = b.log
  | logFull => a.logFull = b.logFull

lemma ofName?_name (field : Field) : ofName? field.name = some field := by
  cases field <;> decide

end Field

/-- What can be used of a value under a name: nothing if the name is not that of a field. -/
def usable? (name : Text) (value : Json) : Option Json :=
  (Field.ofName? name).bind fun field => field.tidy? value

/-- The document without the fields and entries that cannot be used. -/
def tidied (members : Entries Json) : Entries Json :=
  members.filterMap fun (name, value) => (usable? name value).map fun kept => (name, kept)

variable {limit : Json.Limit} {homes : Homes} {text : Text} {members : Entries Json}

lemma get?_tidied (hn : (Entries.keys members).Nodup) (field : Field) :
    (tidied members).get? field.name = (members.get? field.name).bind field.tidy? := by
  have husable : usable? field.name = field.tidy? := by
    funext value
    rw [usable?, Field.ofName?_name]
    rfl
  rw [← husable]
  exact Entries.get?_filterMap hn usable? field.name

/-! ### What is read of a tidy document -/

lemma boolField_tidied (hn : (Entries.keys members).Nodup) {field : Field}
    (hfield : field = .enabled ∨ field = .autoApprove ∨ field = .logFull) (default : Bool) :
    boolField field.name default (tidied members) = boolField field.name default members := by
  unfold boolField
  rw [get?_tidied hn]
  cases members.get? field.name with
  | none => rfl
  | some v => rcases hfield with rfl | rfl | rfl <;> cases v <;> rfl

lemma patternsOf_filter (values : List Json) :
    patternsOf (values.filter isPattern) = patternsOf values := by
  unfold patternsOf
  rw [List.foldl_filter]
  congr 1
  funext patterns value
  cases value with
  | string t =>
    by_cases hblank : t.isBlank = true
    · simp [isPattern, hblank, Text.trim_eq_nil_iff]
    · simp [isPattern, hblank]
  | _ => simp [isPattern]

lemma aliasOf?_of_not_isAlias {entry : Text × Json} (h : isAlias entry = false) :
    aliasOf? entry = none := by
  obtain ⟨key, value⟩ := entry
  cases value with
  | string t =>
    simp only [isAlias, Bool.and_eq_false_iff, Bool.not_eq_false'] at h
    refine if_pos ?_
    rcases h with (hblank | hkey) | hkey
    · exact .inl hblank
    · cases key with
      | nil => exact .inr (.inl rfl)
      | cons c key =>
        have hc : c.isBlank = true := List.all_eq_true.mp hkey c List.mem_cons_self
        exact .inr (.inr (List.any_eq_true.mpr ⟨c, List.mem_cons_self, hc⟩))
    · exact .inr (.inr hkey)
  | _ => rfl

lemma filterMap_filter_isAlias (entries : Entries Json) :
    (entries.filter isAlias).filterMap aliasOf? = entries.filterMap aliasOf? := by
  rw [List.filterMap_filter]
  refine List.filterMap_congr fun entry _ => ?_
  cases h : isAlias entry with
  | true => simp
  | false => simp [aliasOf?_of_not_isAlias h]

lemma patternsField_tidied (hn : (Entries.keys members).Nodup) :
    patternsField (tidied members) = patternsField members := by
  have hget : (tidied members).get? "patterns" = (members.get? "patterns").bind Field.patterns.tidy? :=
    get?_tidied hn .patterns
  unfold patternsField
  rw [hget]
  cases members.get? "patterns" with
  | none => rfl
  | some v =>
    cases v with
    | array values => exact patternsOf_filter values
    | null | bool | int | float | string | object => rfl

lemma aliasesField_tidied (hn : (Entries.keys members).Nodup) :
    aliasesField (tidied members) = aliasesField members := by
  have hget : (tidied members).get? "aliases" = (members.get? "aliases").bind Field.aliases.tidy? :=
    get?_tidied hn .aliases
  unfold aliasesField
  rw [hget]
  cases members.get? "aliases" with
  | none => rfl
  | some v =>
    cases v with
    | object entries => exact filterMap_filter_isAlias entries
    | null | bool | int | float | string | array => rfl

lemma logField_tidied (hn : (Entries.keys members).Nodup) :
    logField homes (tidied members) = logField homes members := by
  have hget : (tidied members).get? "log" = (members.get? "log").bind Field.log.tidy? :=
    get?_tidied hn .log
  unfold logField
  rw [hget]
  cases members.get? "log" with
  | none => rfl
  | some v =>
    cases v with
    | string t => cases hblank : t.isBlank <;> simp [Field.tidy?, hblank]
    | null | bool | int | float | array | object => rfl

theorem ofMembers_tidied (hn : (Entries.keys members).Nodup) :
    ofMembers homes (tidied members) = ofMembers homes members := by
  have henabled : boolField "enabled" true (tidied members) = boolField "enabled" true members :=
    boolField_tidied hn (.inl rfl) true
  have happrove : boolField "auto_approve" false (tidied members) =
      boolField "auto_approve" false members := boolField_tidied hn (.inr (.inl rfl)) false
  have hfull : boolField "log_full" false (tidied members) = boolField "log_full" false members :=
    boolField_tidied hn (.inr (.inr rfl)) false
  unfold ofMembers
  rw [logField_tidied hn, patternsField_tidied hn, aliasesField_tidied hn, henabled, happrove, hfull]

/-! ### What is read of one field -/

/-- Settings whose documents hold the same under a name agree in the field of that name. -/
theorem agrees_of_get?_eq {other : Entries Json} {settings otherSettings : Settings} {field : Field}
    (h : ofMembers homes members = .ok settings) (hother : ofMembers homes other = .ok otherSettings)
    (hget : members.get? field.name = other.get? field.name) :
    field.Agrees settings otherSettings := by
  obtain ⟨log, hlog, rfl⟩ := map_eq_ok h
  obtain ⟨otherLog, hotherLog, rfl⟩ := map_eq_ok hother
  cases field with
  | enabled =>
    have hsame : members.get? "enabled" = other.get? "enabled" := hget
    simp only [Field.Agrees, boolField, hsame]
  | patterns =>
    have hsame : members.get? "patterns" = other.get? "patterns" := hget
    simp only [Field.Agrees, patternsField, hsame]
  | aliases =>
    have hsame : members.get? "aliases" = other.get? "aliases" := hget
    simp only [Field.Agrees, aliasesField, hsame]
  | autoApprove =>
    have hsame : members.get? "auto_approve" = other.get? "auto_approve" := hget
    simp only [Field.Agrees, boolField, hsame]
  | log =>
    have hsame : members.get? "log" = other.get? "log" := hget
    have hfields : logField homes members = logField homes other := by simp only [logField, hsame]
    exact Except.ok.inj (hlog.symm.trans (hfields.trans hotherLog))
  | logFull =>
    have hsame : members.get? "log_full" = other.get? "log_full" := hget
    simp only [Field.Agrees, boolField, hsame]

/-! ### Tidy documents as texts -/

/-- What can be used of a value that was read can be written and read back. -/
lemma isRereadable_of_tidy? {field : Field} {v kept : Json} (hv : Json.Throughout Json.IsReadable v)
    (h : field.tidy? v = some kept) : Json.IsRereadable 1 kept := by
  unfold Field.tidy? at h
  split at h
  -- Three switches, then the patterns, the aliases and the path of the log.
  · obtain rfl := Option.some.inj h
    exact .bool _
  · obtain rfl := Option.some.inj h
    exact .bool _
  · obtain rfl := Option.some.inj h
    exact .bool _
  · rename_i values
    obtain rfl := Option.some.inj h
    refine .array fun item hitem => ?_
    obtain ⟨hmem, hpattern⟩ := List.mem_filter.mp hitem
    have hreadable := Json.throughoutItems_iff.mp hv.2 item hmem
    cases item with
    | string t => exact .string hreadable
    | null | bool | int | float | array | object => simp [isPattern] at hpattern
  · rename_i entries
    obtain rfl := Option.some.inj h
    have hkeys : (Entries.keys (entries.filter isAlias)).Sublist (Entries.keys entries) :=
      List.filter_sublist.map Prod.fst
    refine .object (hv.1.1.sublist hkeys) (fun name hname => hv.1.2 name (hkeys.subset hname)) ?_
    intro member hmember
    obtain ⟨hmem, halias⟩ := List.mem_filter.mp hmember
    have hreadable := Json.throughoutMembers_iff.mp hv.2 member hmem
    obtain ⟨name, value⟩ := member
    cases value with
    | string t => exact .string hreadable
    | null | bool | int | float | array | object => simp [isAlias] at halias
  · rename_i t
    split_ifs at h
    obtain rfl := Option.some.inj h
    exact .string hv
  · cases h

lemma keys_tidied_sublist (members : Entries Json) :
    (Entries.keys (tidied members)).Sublist (Entries.keys members) := by
  induction members with
  | nil => exact List.Sublist.refl []
  | cons member members ih =>
    obtain ⟨name, value⟩ := member
    unfold tidied at ih ⊢
    cases husable : usable? name value with
    | none =>
      rw [List.filterMap_cons_none (by simp [husable])]
      exact ih.cons name
    | some kept =>
      rw [List.filterMap_cons_some (b := (name, kept)) (by simp [husable])]
      exact ih.cons_cons name

/-- A tidy document reads back as itself. -/
theorem parse_render_tidied (hreads : Json.Throughout Json.IsReadable (.object members)) :
    Json.parse limit (Json.object (tidied members)).render = .ok (.object (tidied members)) := by
  have hkeys := keys_tidied_sublist members
  have hobject : Json.IsRereadable 2 (.object (tidied members)) := by
    refine .object (hreads.1.1.sublist hkeys) (fun name hname => hreads.1.2 name (hkeys.subset hname)) ?_
    intro member hmember
    obtain ⟨⟨name, value⟩, hmem, hkept⟩ := List.mem_filterMap.mp hmember
    obtain ⟨kept, husable, rfl⟩ := Option.map_eq_some_iff.mp hkept
    obtain ⟨field, -, htidy⟩ := Option.bind_eq_some_iff.mp husable
    exact isRereadable_of_tidy? (Json.throughoutMembers_iff.mp hreads.2 _ hmem) htidy
  exact hobject.parse_render (by decide)

/-- What cannot be used of a document is as good as absent: every text of the document without it has the
same settings, and if the document stands in a text of characters, then so does the written form. A field
of the settings goes by the value under its own name, whatever else the documents hold. -/
theorem parse_tidied (h : Json.parse limit text = .ok (.object members)) :
    (∀ other, Json.parse limit other = .ok (.object (tidied members)) →
      parse limit homes other = parse limit homes text) ∧
    (text.IsScalar → parse limit homes (Json.object (tidied members)).render = parse limit homes text) ∧
    ∀ (other : Text) (otherMembers : Entries Json) (settings otherSettings : Settings),
      Json.parse limit other = .ok (.object otherMembers) → parse limit homes text = .ok settings →
      parse limit homes other = .ok otherSettings → ∀ field : Field,
        members.get? field.name = otherMembers.get? field.name → field.Agrees settings otherSettings := by
  have hmembers : parse limit homes text = ofMembers homes members := by
    rw [parse, h]
  have htidy : ∀ other, Json.parse limit other = .ok (.object (tidied members)) →
      parse limit homes other = parse limit homes text := by
    intro other hother
    rw [hmembers, parse, hother]
    exact ofMembers_tidied (Json.nodup_keys_of_parse h).1
  refine ⟨htidy, fun htext => ?_, ?_⟩
  · exact htidy _ (parse_render_tidied (Json.parse_reads htext h))
  · intro other otherMembers settings otherSettings hother hsettings hotherSettings field hget
    have hofMembers : parse limit homes other = ofMembers homes otherMembers := by
      rw [parse, hother]
    rw [hmembers] at hsettings
    rw [hofMembers] at hotherSettings
    exact agrees_of_get?_eq hsettings hotherSettings hget

/-! ### Two documents with the same patterns -/

/-- Little of it can be used: a number is no switch, a blank text names no log, and so on. -/
def motleyText : Text :=
  "\x7b\"enabled\": 0, \"patterns\": [\" ls \", 7, \"\"], " ++
    "\"aliases\": \x7b\"a b\": \"x\", \"ls\": \"l\"\x7d, \"log\": \" \"\x7d"

def motleyMembers : Entries Json :=
  [("enabled", .int 0), ("patterns", .array [.string " ls ", .int 7, .string ""]),
    ("aliases", .object [("a b", .string "x"), ("ls", .string "l")]), ("log", .string " ")]

def plainMembers : Entries Json :=
  [("patterns", .array [.string " ls "]), ("aliases", .object [("ls", .string "l")])]

def disabledText : Text := "\x7b\"enabled\": false, \"patterns\": [\" ls \", 7, \"\"]\x7d"

def disabledMembers : Entries Json :=
  [("enabled", .bool false), ("patterns", .array [.string " ls ", .int 7, .string ""])]

set_option maxRecDepth 8000 in
lemma parse_motleyText : Json.parse {} motleyText = .ok (.object motleyMembers) := by cbv

set_option maxRecDepth 8000 in
lemma parse_disabledText : Json.parse {} disabledText = .ok (.object disabledMembers) := by cbv

theorem parse_tidied_motley :
    tidied motleyMembers = plainMembers ∧
      parse {} { own := "/h" } (Json.object plainMembers).render = parse {} { own := "/h" } motleyText ∧
      ∃ settings otherSettings, parse {} { own := "/h" } motleyText = .ok settings ∧
        parse {} { own := "/h" } disabledText = .ok otherSettings ∧
      Field.patterns.Agrees settings otherSettings := by
  have htidied : tidied motleyMembers = plainMembers := by rfl
  have htext : motleyText.IsScalar := by decide
  obtain ⟨-, hwritten, hfields⟩ := @parse_tidied {} { own := "/h" } _ _ parse_motleyText
  have hsettings : parse {} { own := "/h" } motleyText =
      .ok { patterns := ["ls"], aliases := [("ls", "l")] } := by
    rw [parse, parse_motleyText]
    rfl
  have hdisabled : parse {} { own := "/h" } disabledText = .ok { enabled := false, patterns := ["ls"] } := by
    rw [parse, parse_disabledText]
    rfl
  refine ⟨htidied, ?_, _, _, hsettings, hdisabled, ?_⟩
  · rw [← htidied]
    exact hwritten htext
  · exact hfields _ _ _ _ parse_disabledText hsettings hdisabled .patterns rfl

end CommandWrap.Settings

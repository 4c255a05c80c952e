import Mathlib
import CommandWrap.DecisionLog
import CommandWrap.Proofs.Session.Line

/-! A line of the decision log tells what it was given: each part that is shown reads back under its name,
and beside them there are the level and the time alone. -/
namespace CommandWrap

open Json

variable {full : Bool} {time : Stamp} {notice : Notice} {name : Text} {value : Option Text}

/-- All texts of the notice are joined. -/
structure Notice.IsJoined (notice : Notice) : Prop where
  event : notice.event.Joined
  name : notice.name.Joined
  reason : ∀ t ∈ notice.reason, t.Joined
  pattern : ∀ t ∈ notice.pattern, t.Joined
  command : ∀ t ∈ notice.command, t.Joined
  rewritten : ∀ t ∈ notice.rewritten, t.Joined

namespace DecisionLog

/-- What may stand in a line, in its order. -/
def names : List Text := ["cmd", "reason", "pattern", "command", "rewritten", "event", "level", "ts"]

/-- An object that shows the notice, each given part under its name. The commands are shown only if the
log is a full one. -/
structure Shows (full : Bool) (time : Stamp) (notice : Notice) (m : Entries Json) : Prop where
  event : m.get? "event" = some (.string notice.event)
  cmd : m.get? "cmd" = some (.string notice.name)
  reason : m.get? "reason" = notice.reason.map .string
  pattern : m.get? "pattern" = notice.pattern.map .string
  command : m.get? "command" = if full then notice.command.map .string else none
  rewritten : m.get? "rewritten" = if full then notice.rewritten.map .string else none
  level : m.get? "level" = some (.string "info")
  ts : m.get? "ts" = some (.string time.zuluText)
  others : ∀ name ∈ Entries.keys m, name ∈ names

lemma keys_member_sublist : (Entries.keys (member name value)).Sublist [name] := by
  cases value with
  | none => exact List.nil_sublist _
  | some t => exact List.Sublist.refl _

lemma keys_members_sublist : (Entries.keys (members full time notice)).Sublist names := by
  have hshown : (Entries.keys (if full then member "command" notice.command ++
      member "rewritten" notice.rewritten else [])).Sublist ["command", "rewritten"] := by
    cases full with
    | false => exact List.nil_sublist _
    | true =>
      rw [if_pos rfl, Entries.keys, List.map_append]
      exact keys_member_sublist.append keys_member_sublist
  simp only [members, Entries.keys, List.map_append]
  exact (((((keys_member_sublist.append keys_member_sublist).append keys_member_sublist).append
    hshown).append keys_member_sublist).append keys_member_sublist).append keys_member_sublist

lemma get?_member {key : Text} :
    Entries.get? key (member name value) = if key = name then value.map Json.string else none := by
  cases value with
  | none => simp [member, Entries.get?]
  | some t => exact Entries.get?_cons (name, Json.string t) [] key

lemma get?_append {key : Text} {m n : Entries Json} :
    Entries.get? key (m ++ n) = (Entries.get? key m).or (Entries.get? key n) := List.lookup_append

theorem shows_members (full : Bool) (time : Stamp) (notice : Notice) :
    Shows full time notice (members full time notice) := by
  have hshown : ∀ key : Text, Entries.get? key (if full then member "command" notice.command ++
      member "rewritten" notice.rewritten else []) =
        if full then (if key = "command" then notice.command.map Json.string else none).or
          (if key = "rewritten" then notice.rewritten.map Json.string else none) else none := by
    intro key
    cases full with
    | false => rfl
    | true => simp only [if_true, get?_append, get?_member]
  refine ⟨?_, ?_, ?_, ?_, ?_, ?_, ?_, ?_, fun name hname => keys_members_sublist.subset hname⟩
  all_goals simp +decide only [members, get?_append, get?_member, hshown, if_true, if_false, ite_self,
    Option.none_or, Option.or_none, Option.map_some]

lemma mem_member {m : Text × Json} (h : m ∈ member name value) : ∃ t ∈ value, m.2 = .string t := by
  obtain ⟨t, ht, rfl⟩ := List.mem_map.mp h
  exact ⟨t, Option.mem_toList.mp ht, rfl⟩

/-- Whatever stands in a line is a joined text. -/
lemma joined_of_mem_members (hnotice : notice.IsJoined) {m : Text × Json}
    (h : m ∈ members full time notice) : ∃ t : Text, m.2 = .string t ∧ t.Joined := by
  have hpart : ∀ {name : Text} {value : Option Text}, (∀ t ∈ value, t.Joined) → m ∈ member name value →
      ∃ t : Text, m.2 = .string t ∧ t.Joined := by
    intro name value hvalue hm
    obtain ⟨t, ht, heq⟩ := mem_member hm
    exact ⟨t, heq, hvalue t ht⟩
  have hgiven : ∀ {t : Text}, t.Joined → ∀ s ∈ some t, s.Joined := by
    rintro t ht s ⟨⟩
    exact ht
  simp only [members, List.mem_append, or_assoc] at h
  rcases h with h | h | h | h | h | h | h
  · exact hpart (hgiven hnotice.name) h
  · exact hpart hnotice.reason h
  · exact hpart hnotice.pattern h
  · split_ifs at h
    · rcases List.mem_append.mp h with h | h
      · exact hpart hnotice.command h
      · exact hpart hnotice.rewritten h
    · cases h
  · exact hpart (hgiven hnotice.event) h
  · exact hpart (hgiven (by decide)) h
  · exact hpart (hgiven (Stamp.isVisible_zuluText time).isScalar.joined) h

/-- A line reads back as the object that it is written from. -/
theorem parse_line {limit : Json.Limit} (hnotice : notice.IsJoined) :
    Json.parse limit (line full time notice) = .ok (.object (members full time notice)) := by
  have hnames : names.Nodup ∧ ∀ name ∈ names, name.Joined := by decide
  have hkeys : (Entries.keys (members full time notice)).Sublist names := keys_members_sublist
  have hvalues : ∀ m ∈ members full time notice, IsRereadable 0 m.2 := by
    intro m hm
    obtain ⟨t, ht, hjoined⟩ := joined_of_mem_members hnotice hm
    rw [ht]
    exact .string hjoined
  have hobject : IsRereadable 1 (.object (members full time notice)) :=
    .object (hnames.1.sublist hkeys) (fun name hname => hnames.2 name (hkeys.subset hname)) hvalues
  exact hobject.parse_render (by decide)

end DecisionLog
end CommandWrap

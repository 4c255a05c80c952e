import Mathlib
import CommandWrap.Proofs.Hook.Handling

/-! Which payloads are answered: all but those in which a list or an object stands for the name of the tool.
The answer is empty unless the shell is called with a command that is rewritten. -/
namespace CommandWrap

open CommandWrap.Action

variable {settings : Settings} {payload input : Entries Json} {container : Json.Container}
  {outcome : Outcome} {rewritten : Text} {session : Option Text} {w : Workspace}

/-! ### Outcomes and their answers -/

namespace Hook

/-- What stands for the name of the tool, if it is no scalar. -/
def nestedName? (payload : Entries Json) : Option Json.Container :=
  match payload.get? "tool_name" with
  | some (.array _) => some .array
  | some (.object _) => some .object
  | _ => none

lemma isShell_cases (payload : Entries Json) :
    (∃ container, nestedName? payload = some container ∧
      isShell (payload.get? "tool_name") = .error container) ∨
    (nestedName? payload = none ∧ ∃ shell, isShell (payload.get? "tool_name") = .ok shell) := by
  unfold nestedName?
  cases payload.get? "tool_name" with
  | none => exact .inr ⟨rfl, _, rfl⟩
  | some name =>
    cases name with
    | array items => exact .inl ⟨_, rfl, rfl⟩
    | object members => exact .inl ⟨_, rfl, rfl⟩
    | null | bool | int | float | string => exact .inr ⟨rfl, _, rfl⟩

lemma handle_of_nested (h : nestedName? payload = some container) (settings : Settings) :
    handle settings payload = .error container := by
  rcases isShell_cases payload with ⟨other, hother, hname⟩ | ⟨hnone, -⟩
  · obtain rfl := Option.some.inj (hother.symm.trans h)
    rw [handle, hname]
    rfl
  · rw [h] at hnone
    cases hnone

lemma handle_of_not_nested (h : nestedName? payload = none) (settings : Settings) :
    ∃ outcome, handle settings payload = .ok outcome := by
  rcases isShell_cases payload with ⟨container, hnested, -⟩ | ⟨-, shell, hname⟩
  · rw [h] at hnested
    cases hnested
  · rw [handle_eq, hname]
    exact ⟨_, rfl⟩

/-- The shell is called with a command that is rewritten. -/
def RewritesTo (settings : Settings) (payload input : Entries Json) (rewritten : Text) : Prop :=
  ∃ command kind, CallsShell payload input command ∧
    settings.decision command = .rewritten kind rewritten

lemma rewriteAnswer_ne (settings : Settings) (input : Entries Json) (rewritten : Text) :
    rewriteAnswer settings input rewritten ≠ .object [] := by
  unfold rewriteAnswer
  intro h
  cases h

lemma answer_of_rewritesTo (hhandle : handle settings payload = .ok outcome)
    (h : RewritesTo settings payload input rewritten) :
    outcome.answer = rewriteAnswer settings input rewritten := by
  obtain ⟨command, kind, hshell, hdecision⟩ := h
  rw [handle_of_callsShell hshell] at hhandle
  rw [← Except.ok.inj hhandle, answer_handleCommand, hdecision]

lemma answer_ne_iff (hhandle : handle settings payload = .ok outcome) :
    outcome.answer ≠ .object [] ↔ ∃ input rewritten, RewritesTo settings payload input rewritten := by
  constructor
  · intro hanswer
    by_cases hshell : ∃ input command, CallsShell payload input command
    · obtain ⟨input, command, hshell⟩ := hshell
      cases hdecision : settings.decision command with
      | unchanged guard =>
        rw [handle_of_callsShell hshell] at hhandle
        rw [← Except.ok.inj hhandle, answer_handleCommand, hdecision] at hanswer
        exact absurd rfl hanswer
      | rewritten kind rewritten => exact ⟨input, rewritten, command, kind, hshell, hdecision⟩
    · have hnone : ∀ input command, ¬ CallsShell payload input command :=
        fun input command h => hshell ⟨input, command, h⟩
      rw [eq_passed_of_not_callsShell hnone hhandle] at hanswer
      exact absurd rfl hanswer
  · rintro ⟨input, rewritten, h⟩
    rw [answer_of_rewritesTo hhandle h]
    exact rewriteAnswer_ne settings input rewritten

end Hook

/-! ### Answers in a workspace -/

namespace Workspace

/-- Neither the record in the session nor the log has a part in the answer, if the session can be tried and
the log takes the line. -/
lemma outcome_handle (htries : session = none ∨ w.TriesSessions)
    (htakes : w.TakesLine settings session payload) :
    ((handle settings session payload).outcome w).1 = match Hook.handle settings payload with
      | .ok outcome => .ok outcome.answer
      | .error container => .error (.toolNameNested container) := by
  cases hhandle : Hook.handle settings payload with
  | error container =>
    rw [handle_eq, hhandle]
    rfl
  | ok outcome =>
    rw [handle_recorded hhandle (wrote_recorded htries outcome).1, outcome_noticed (htakes outcome hhandle)]

/-- A payload is refused exactly if its tool goes by a list or an object. All others are answered, whatever
stands in them, and the answer is empty unless the shell is called with a command that is rewritten. -/
theorem handle_answers_unless_nested (htries : session = none ∨ w.TriesSessions)
    (htakes : w.TakesLine settings session payload) :
    (∀ container, Hook.nestedName? payload = some container →
      ((handle settings session payload).outcome w).1 = .error (.toolNameNested container)) ∧
    (Hook.nestedName? payload = none → ∃ answer,
      ((handle settings session payload).outcome w).1 = .ok answer ∧
      (answer ≠ .object [] ↔ ∃ input rewritten, Hook.RewritesTo settings payload input rewritten) ∧
      ∀ input rewritten, Hook.RewritesTo settings payload input rewritten →
        answer = Hook.rewriteAnswer settings input rewritten) := by
  have hrun := outcome_handle htries htakes
  constructor
  · intro container hnested
    rw [hrun, Hook.handle_of_nested hnested]
  · intro hscalar
    obtain ⟨outcome, hhandle⟩ := Hook.handle_of_not_nested hscalar settings
    rw [hhandle] at hrun
    exact ⟨outcome.answer, hrun, Hook.answer_ne_iff hhandle,
      fun input rewritten => Hook.answer_of_rewritesTo hhandle⟩

/-- A tool without a name and a listing in a session. -/
theorem handle_answers_unless_nested_pair :
    ((handle {} none [("tool_name", .array [])]).outcome emptyWorkspace).1 =
      .error (.toolNameNested .array) ∧
    ∃ answer, ((handle {} (some "s") listing).outcome emptyWorkspace).1 = .ok answer ∧
      answer ≠ .object [] := by
  have htries : emptyWorkspace.TriesSessions :=
    ⟨by decide, FileSystem.not_lacksTooMany (by decide)⟩
  have htakes : ∀ session payload, emptyWorkspace.TakesLine {} session payload :=
    takesLine_of_log_none rfl {}
  have hrewrites : Hook.RewritesTo {} listing [("command", .string "ls")] "rtk ls" :=
    ⟨"ls", _, ⟨rfl, rfl, rfl⟩, rfl⟩
  obtain ⟨answer, hanswer, hne, -⟩ :=
    (handle_answers_unless_nested (.inr htries) (htakes (some "s") listing)).2 rfl
  exact ⟨(handle_answers_unless_nested (.inl rfl) (htakes none _)).1 .array rfl, answer, hanswer,
    hne.mpr ⟨_, _, hrewrites⟩⟩

end Workspace
end CommandWrap

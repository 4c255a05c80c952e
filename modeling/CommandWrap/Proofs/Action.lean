import Mathlib
import CommandWrap.Workspace

/-! What actions come to: a result or a fault, and the workspace they leave. -/
namespace CommandWrap.Action

variable {α β : Type} {w after : Workspace}

def outcome (m : Action α) (w : Workspace) : Except Fault α × Workspace := m.run.run w

@[simp] lemma outcome_pure (a : α) (w : Workspace) : outcome (pure a) w = (.ok a, w) := rfl

@[simp] lemma outcome_get (w : Workspace) : outcome get w = (.ok w, w) := rfl

@[simp] lemma outcome_modify (f : Workspace → Workspace) (w : Workspace) :
    outcome (modify f) w = (.ok ⟨⟩, f w) := rfl

@[simp] lemma outcome_throw (fault : Fault) (w : Workspace) :
    outcome (throw fault : Action α) w = (.error fault, w) := rfl

@[simp] lemma outcome_lift (x : Except Fault α) (w : Workspace) :
    outcome (liftM x : Action α) w = (x, w) := by
  cases x <;> rfl

lemma outcome_bind (m : Action α) (f : α → Action β) (w : Workspace) :
    outcome (m >>= f) w = match outcome m w with
      | (.ok a, between) => outcome (f a) between
      | (.error e, between) => (.error e, between) := by
  have hrun : outcome (m >>= f) w = match outcome m w with
      | (r, between) => (ExceptT.bindCont f r : StateM Workspace _) between := rfl
  rw [hrun]
  rcases outcome m w with ⟨r, between⟩
  cases r <;> rfl

lemma outcome_tryCatch (m : Action α) (k : Fault → Action α) (w : Workspace) :
    outcome (tryCatch m k) w = match outcome m w with
      | (.ok a, between) => (.ok a, between)
      | (.error e, between) => outcome (k e) between := by
  rcases hm : outcome m w with ⟨r, between⟩
  have hrun : StateT.run m w = (pure (r, between) : Id _) := hm
  simp only [outcome, tryCatch, tryCatchThe, MonadExceptOf.tryCatch, ExceptT.tryCatch, ExceptT.run_mk,
    StateT.run_bind, hrun, pure_bind]
  cases r <;> rfl

lemma bind_ok {m : Action α} {f : α → Action β} {b : β} (h : outcome (m >>= f) w = (.ok b, after)) :
    ∃ a between, outcome m w = (.ok a, between) ∧ outcome (f a) between = (.ok b, after) := by
  rw [outcome_bind] at h
  rcases hm : outcome m w with ⟨r, between⟩
  cases r with
  | error e => simp [hm] at h
  | ok a => exact ⟨a, between, rfl, by simpa [hm] using h⟩

end CommandWrap.Action

import Mathlib

/-!
# Actions step by step

What an action does is known as soon as it is known for its first step: these lemmas open one step
of an `EStateM` action at the state on which it runs.
-/

namespace Switchboard

variable {ε δ σ α β : Type}

/-- The result of an action that came to `outcome` and left `after` behind. -/
def ended (outcome : Except ε α) (after : σ) : EStateM.Result ε σ α :=
  match outcome with
  | .ok a => .ok a after
  | .error error => .error error after

/-- The result or the failure of an action, without the state that it left behind. -/
def Action.outcome : EStateM.Result ε σ α → Except ε α
  | .ok a _ => .ok a
  | .error error _ => .error error

/-- The state that an action left behind, whether or not it succeeded. -/
def Action.left : EStateM.Result ε σ α → σ
  | .ok _ after | .error _ after => after

/-- What comes behind a check succeeds when the check does. -/
theorem check_bind_eq_ok_iff {check : Except ε Unit} {rest : Unit → Except ε β} {b : β} :
    (check >>= rest) = .ok b ↔ check = .ok () ∧ rest () = .ok b := by
  cases check with
  | ok _ => simp [bind, Except.bind]
  | error error => simp [bind, Except.bind]

namespace Action

variable {action : EStateM ε σ α} {next : α → EStateM ε σ β} {state after : σ}

theorem bind_of_ok {a : α} (h : action state = .ok a after) :
    (action >>= next) state = next a after := by
  show EStateM.bind action next state = next a after
  simp [EStateM.bind, h]

theorem bind_of_error {error : ε} (h : action state = .error error after) :
    (action >>= next) state = .error error after := by
  show EStateM.bind action next state = .error error after
  simp [EStateM.bind, h]

/-- An action in two steps succeeds exactly when the second step succeeds on what the first leaves
behind. -/
theorem bind_eq_ok_iff {b : β} {final : σ} :
    (action >>= next) state = .ok b final ↔
      ∃ a after, action state = .ok a after ∧ next a after = .ok b final := by
  constructor
  · intro h
    cases haction : action state with
    | ok a after =>
        rw [bind_of_ok haction] at h
        exact ⟨a, after, rfl, h⟩
    | error error after => simp [bind_of_error haction] at h
  · rintro ⟨a, after, haction, hnext⟩
    rw [bind_of_ok haction, hnext]

/-- An action in two steps fails exactly when one of the steps does. -/
theorem bind_eq_error_iff {error : ε} {final : σ} :
    (action >>= next) state = .error error final ↔ action state = .error error final ∨
      ∃ a after, action state = .ok a after ∧ next a after = .error error final := by
  cases haction : action state with
  | ok a after =>
      rw [bind_of_ok haction]
      constructor
      · intro hnext
        exact .inr ⟨a, after, rfl, hnext⟩
      · rintro (hnone | ⟨_, _, ⟨⟩, hnext⟩)
        · exact nomatch hnone
        · exact hnext
  | error fault after => simp [bind_of_error haction]

theorem adaptExcept_of_ok {rename : ε → δ} {a : α} (h : action state = .ok a after) :
    action.adaptExcept rename state = .ok a after := by
  simp [EStateM.adaptExcept, h]

theorem adaptExcept_of_error {rename : ε → δ} {error : ε} (h : action state = .error error after) :
    action.adaptExcept rename state = .error (rename error) after := by
  simp [EStateM.adaptExcept, h]

end Action

end Switchboard

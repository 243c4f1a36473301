/-!
# Results of actions

An action of the machine or of a session ends with a value or with an error, and in both cases it
leaves a state behind. `Result.state` is that state, `Result.mapState` changes it, and
`Result.outcome` is the rest of the result. A sequence of two actions ends with a value exactly when
both do (`bind_eq_ok`), and fails where the first of them does that fails (`bind_eq_error`).
-/

namespace EStateM

variable {ε σ α β : Type}

/-- The state that an action leaves behind. -/
def Result.state : Result ε σ α → σ
  | .ok _ s | .error _ s => s

/-- The result with another state left behind. -/
def Result.mapState (f : σ → σ) : Result ε σ α → Result ε σ α
  | .ok a s => .ok a (f s)
  | .error e s => .error e (f s)

/-- The value or the error that an action ends with. -/
def Result.outcome : Result ε σ α → Except ε α
  | .ok a _ => .ok a
  | .error e _ => .error e

/-- The state behind a success. -/
@[simp]
theorem Result.state_ok (a : α) (s : σ) : (.ok a s : Result ε σ α).state = s := rfl

/-- The state behind a failure. -/
@[simp]
theorem Result.state_error (e : ε) (s : σ) : (.error e s : Result ε σ α).state = s := rfl

/-- A success with its state changed is a success. -/
@[simp]
theorem Result.mapState_ok (f : σ → σ) (a : α) (s : σ) :
    (.ok a s : Result ε σ α).mapState f = .ok a (f s) := rfl

/-- A failure with its state changed is a failure. -/
@[simp]
theorem Result.mapState_error (f : σ → σ) (e : ε) (s : σ) :
    (.error e s : Result ε σ α).mapState f = .error e (f s) := rfl

/-- What is changed about a result is its state. -/
@[simp]
theorem Result.state_mapState (f : σ → σ) (r : Result ε σ α) :
    (r.mapState f).state = f r.state := by
  cases r <;> rfl

/-- Changing the state leaves the outcome alone. -/
@[simp]
theorem Result.outcome_mapState (f : σ → σ) (r : Result ε σ α) :
    (r.mapState f).outcome = r.outcome := by
  cases r <;> rfl

/-- The outcome is an error exactly if the action has failed with it, in some state. -/
theorem Result.outcome_eq_error {r : Result ε σ α} {e : ε} :
    r.outcome = .error e ↔ ∃ s, r = .error e s := by
  cases r <;> simp [outcome]

/-- An action with a value for its outcome succeeds, in the state that it leaves. -/
theorem Result.eq_ok_of_outcome {r : Result ε σ α} {a : α} (h : r.outcome = .ok a) :
    r = .ok a r.state := by
  cases r with
  | ok b s =>
    cases h
    rfl
  | error e s => cases h

/-- An action that only changes the state. -/
theorem modify_apply (f : σ → σ) (s : σ) :
    (modify f : EStateM ε σ PUnit) s = .ok ⟨⟩ (f s) := rfl

/-- An action that only gives a value. -/
theorem pure_apply (a : α) (s : σ) : (pure a : EStateM ε σ α) s = .ok a s := rfl

/-- An action that looks at the state first. -/
theorem get_bind_apply (f : σ → EStateM ε σ α) (s : σ) : (get >>= f) s = f s s := rfl

/-- The second action of a sequence starts where the first one ends. -/
theorem bind_apply (x : EStateM ε σ α) (f : α → EStateM ε σ β) (s : σ) :
    (x >>= f) s = match x s with
      | .ok a t => f a t
      | .error e t => .error e t := rfl

/-- A sequence of two actions ends with a value exactly when both actions do. -/
theorem bind_eq_ok {x : EStateM ε σ α} {f : α → EStateM ε σ β} {s t : σ} {b : β} :
    (x >>= f) s = .ok b t ↔ ∃ a u, x s = .ok a u ∧ f a u = .ok b t := by
  rw [bind_apply]
  constructor
  · intro h
    cases hx : x s with
    | ok a u => exact ⟨a, u, rfl, by rwa [hx] at h⟩
    | error e u => simp [hx] at h
  · rintro ⟨a, u, hx, hf⟩
    rw [hx]
    exact hf

/-- A sequence of two actions fails exactly when the first one does or the second one behind it. -/
theorem bind_eq_error {x : EStateM ε σ α} {f : α → EStateM ε σ β} {s t : σ} {e : ε} :
    (x >>= f) s = .error e t ↔
      x s = .error e t ∨ ∃ a u, x s = .ok a u ∧ f a u = .error e t := by
  rw [bind_apply]
  cases x s with
  | ok a u =>
    constructor
    · intro h
      exact .inr ⟨a, u, rfl, h⟩
    · rintro (h | ⟨_, _, h, hf⟩)
      · cases h
      · cases h
        exact hf
  | error e' u =>
    constructor
    · intro h
      cases h
      exact .inl rfl
    · rintro (h | ⟨_, _, h, _⟩)
      · cases h
        rfl
      · cases h

/-- Behind a first action that ends with a value, a sequence is the second action. -/
theorem bind_of_ok {x : EStateM ε σ α} {s u : σ} {a : α} (h : x s = .ok a u)
    (f : α → EStateM ε σ β) : (x >>= f) s = f a u := by
  rw [bind_apply, h]

/-- A first action that fails is the whole sequence. -/
theorem bind_of_error {x : EStateM ε σ α} {s u : σ} {e : ε} (h : x s = .error e u)
    (f : α → EStateM ε σ β) : (x >>= f) s = .error e u := by
  rw [bind_apply, h]

/-- A sequence whose second action only gives a value leaves what the first one leaves. -/
theorem state_bind_pure (x : EStateM ε σ α) (f : α → β) (s : σ) :
    ((x >>= fun a => pure (f a)) s).state = (x s).state := by
  rw [bind_apply]
  cases x s <;> rfl

end EStateM

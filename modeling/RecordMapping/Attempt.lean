import RecordMapping.Error

/-!
# Attempts

An attempt changes a state and gives a value or an error. What was changed before an error stays
changed, so that every attempt says for itself what a failure leaves behind.
-/

namespace RecordMapping

/-- A computation that may fail, and whose changes of the state stay when it does. -/
abbrev Attempt (σ α : Type) := EStateM MappingError σ α

namespace Attempt

variable {σ τ α : Type}

/-- The attempt with a known result. -/
def ofOutcome (outcome : Outcome α) : Attempt σ α := fun state =>
  match outcome with
  | .ok value => .ok value state
  | .error error => .error error state

instance : MonadLift (Except MappingError) (EStateM MappingError σ) where
  monadLift := ofOutcome

/-- Replaces the state, or leaves it alone if the new one cannot be made. -/
def update (change : σ → Outcome σ) : Attempt σ Unit := fun state =>
  match change state with
  | .ok next => .ok () next
  | .error error => .error error state

/-- An attempt on a part of the state. -/
def onPart (part : σ → τ) (replace : τ → σ → σ) (attempt : Attempt τ α) : Attempt σ α :=
  fun state =>
    match attempt (part state) with
    | .ok value next => .ok value (replace next state)
    | .error error next => .error error (replace next state)

/-- Makes an attempt for each item, in order, up to the first error. -/
def each (items : List τ) (attempt : τ → Attempt σ Unit) : Attempt σ Unit :=
  match items with
  | [] => pure ()
  | item :: rest => do
      attempt item
      each rest attempt

/-- The attempt with the failures ignored that only tell of an object that is not stored yet. -/
def tolerant (attempt : Attempt σ Unit) : Attempt σ Unit := fun state =>
  match attempt state with
  | .error error next => if error.isProvisional then .ok () next else .error error next
  | done => done

/-- An attempt on a local value together with the state. The value that it ends with is part of
the result. -/
def withLocal {ρ : Type} (attempt : Attempt ρ α) (start : τ) (join : τ → σ → ρ)
    (split : σ → ρ → τ × σ) : Attempt σ (α × τ) := fun state =>
  match attempt (join start state) with
  | .ok value next => .ok (value, (split state next).1) (split state next).2
  | .error error next => .error error (split state next).2

/-- The result of an attempt together with the state that it leaves, if it is successful. -/
def result (attempt : Attempt σ α) (state : σ) : Outcome (α × σ) :=
  match attempt state with
  | .ok value next => .ok (value, next)
  | .error error _ => .error error

/-- The result of an attempt and the state that it leaves. -/
def outcome (attempt : Attempt σ α) (state : σ) : Outcome α × σ :=
  match attempt state with
  | .ok value next => (.ok value, next)
  | .error error next => (.error error, next)

end Attempt

end RecordMapping

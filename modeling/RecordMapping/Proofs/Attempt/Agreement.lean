import Mathlib.Data.List.Forall2
import RecordMapping.Proofs.Attempt

/-!
# Attempts that agree

Two attempts agree from two states when they end with the same value or the same error and leave
states that are alike. What "alike" means is chosen for the states at hand: equal but for a log, equal
but for what nobody looks at. Attempts agree as soon as their steps do, so that two runs of the same
attempt in different surroundings are compared step by step.
-/

namespace RecordMapping.Attempt

variable {σ τ σ' τ' α β ι κ : Type} {alike : σ → τ → Prop} {state : σ} {twin : τ}

/-- Two results with the same value or the same error, whose states are alike. -/
inductive Agree (alike : σ → τ → Prop) :
    EStateM.Result MappingError σ α → EStateM.Result MappingError τ α → Prop where
  | ok {value : α} {next : σ} {other : τ} (reached : alike next other) :
      Agree alike (.ok value next) (.ok value other)
  | error {error : MappingError} {next : σ} {other : τ} (reached : alike next other) :
      Agree alike (.error error next) (.error error other)

theorem Agree.refl {alike : σ → σ → Prop} (same : ∀ state, alike state state)
    (result : EStateM.Result MappingError σ α) : Agree alike result result := by
  cases result with
  | ok value next => exact .ok (same next)
  | error error next => exact .error (same next)

theorem Agree.mono {weaker : σ → τ → Prop} {first : EStateM.Result MappingError σ α}
    {second : EStateM.Result MappingError τ α} (agree : Agree alike first second)
    (weakens : ∀ state twin, alike state twin → weaker state twin) : Agree weaker first second := by
  cases agree with
  | ok reached => exact .ok (weakens _ _ reached)
  | error reached => exact .error (weakens _ _ reached)

/-- What attempts that agree give, and what they leave. -/
theorem Agree.outcome {first : Attempt σ α} {second : Attempt τ α}
    (agree : Agree alike (first state) (second twin)) :
    (first.outcome state).1 = (second.outcome twin).1 ∧
      alike (first.outcome state).2 (second.outcome twin).2 := by
  unfold Attempt.outcome
  cases left : first state <;> cases right : second twin <;>
    (rw [left, right] at agree; cases agree)
  case ok.ok reached => exact ⟨rfl, reached⟩
  case error.error reached => exact ⟨rfl, reached⟩

theorem Agree.of_eq {first second : Attempt σ α} (agree : Agree Eq (first state) (second state)) :
    first state = second state := by
  cases left : first state <;> cases right : second state <;>
    (rw [left, right] at agree; cases agree)
  case ok.ok reached => rw [reached]
  case error.error reached => rw [reached]

/-! ## Steps -/

theorem agree_pure (value : α) (reached : alike state twin) :
    Agree alike ((pure value : Attempt σ α) state) ((pure value : Attempt τ α) twin) :=
  .ok reached

theorem agree_throw (error : MappingError) (reached : alike state twin) :
    Agree alike ((throw error : Attempt σ α) state) ((throw error : Attempt τ α) twin) :=
  .error reached

theorem agree_bind {first : Attempt σ α} {second : Attempt τ α} {next : α → Attempt σ β}
    {other : α → Attempt τ β} (agree : Agree alike (first state) (second twin))
    (later : ∀ value middle between, alike middle between →
      Agree alike (next value middle) (other value between)) :
    Agree alike ((first >>= next) state) ((second >>= other) twin) := by
  cases left : first state <;> cases right : second twin <;>
    (rw [left, right] at agree; cases agree)
  case ok.ok value middle between reached =>
      rw [bind_of_ok left, bind_of_ok right]
      exact later value middle between reached
  case error.error error middle between reached =>
      rw [bind_of_error left, bind_of_error right]
      exact .error reached

theorem agree_get_bind {next : σ → Attempt σ β} {other : τ → Attempt τ β}
    (later : Agree alike (next state state) (other twin twin)) :
    Agree alike ((get >>= next) state) ((get >>= other) twin) := by
  rw [get_bind, get_bind]
  exact later

theorem agree_outcome_bind {outcome : Outcome α} {next : α → Attempt σ β}
    {other : α → Attempt τ β} (reached : alike state twin)
    (later : ∀ value, Agree alike (next value state) (other value twin)) :
    Agree alike (((liftM outcome : Attempt σ α) >>= next) state)
      (((liftM outcome : Attempt τ α) >>= other) twin) := by
  cases outcome with
  | ok value => exact later value
  | error error => exact .error reached

/-! ## Attempts made of others -/

/-- The same attempt for each of two lists of items that correspond to each other. -/
theorem agree_each {related : ι → κ → Prop} {items : List ι} {others : List κ}
    {attempt : ι → Attempt σ Unit} {other : κ → Attempt τ Unit}
    (paired : List.Forall₂ related items others)
    (agree : ∀ item twinItem, related item twinItem → ∀ state twin, alike state twin →
      Agree alike (attempt item state) (other twinItem twin)) (reached : alike state twin) :
    Agree alike (each items attempt state) (each others other twin) := by
  induction paired generalizing state twin with
  | nil => exact agree_pure () reached
  | cons here _ ih =>
      exact agree_bind (agree _ _ here state twin reached) fun _ _ _ reached => ih reached

theorem each_congr {items : List ι} {attempt other : ι → Attempt σ Unit}
    (same : ∀ item ∈ items, attempt item = other item) : each items attempt = each items other := by
  induction items with
  | nil => rfl
  | cons item rest ih =>
      obtain ⟨here, later⟩ := List.forall_mem_cons.mp same
      rw [each, each, here, ih later]

/-- Failures that are ignored of a part are ignored of the whole. -/
theorem tolerant_onPart (part : σ → σ') (replace : σ' → σ → σ) (attempt : Attempt σ' Unit) :
    (onPart part replace attempt).tolerant = onPart part replace attempt.tolerant := by
  funext state
  unfold tolerant onPart
  cases made : attempt (part state) with
  | ok value next => simp only [made]
  | error error next =>
      by_cases provisional : error.isProvisional
      · simp only [made, provisional, ↓reduceIte]
      · simp only [made, provisional, Bool.false_eq_true, ↓reduceIte]

theorem tolerant_get_bind {next : σ → Attempt σ Unit} :
    (get >>= next).tolerant state = (next state).tolerant state := by
  rw [tolerant, tolerant, get_bind]

/-- A check that fails for good is not ignored. -/
theorem tolerant_outcome_bind {outcome : Outcome Unit} {next : Unit → Attempt σ Unit}
    (final : Reports (·.isProvisional = false) outcome) :
    ((liftM outcome : Attempt σ Unit) >>= next).tolerant =
      (liftM outcome : Attempt σ Unit) >>= fun done => (next done).tolerant := by
  cases outcome with
  | ok value => rfl
  | error error =>
      funext state
      have lasting := final error rfl
      change (if error.isProvisional then _ else _) = _
      rw [lasting]
      rfl

theorem agree_tolerant {first : Attempt σ Unit} {second : Attempt τ Unit}
    (agree : Agree alike (first state) (second twin)) :
    Agree alike (first.tolerant state) (second.tolerant twin) := by
  unfold tolerant
  cases left : first state <;> cases right : second twin <;>
    (rw [left, right] at agree; cases agree)
  case ok.ok reached => exact .ok reached
  case error.error error next other reached =>
      by_cases provisional : error.isProvisional
      · simp only [provisional, ↓reduceIte]
        exact .ok reached
      · simp only [provisional, Bool.false_eq_true, ↓reduceIte]
        exact .error reached

theorem agree_onPart {partAlike : σ' → τ' → Prop} {part : σ → σ'} {replace : σ' → σ → σ}
    {otherPart : τ → τ'} {otherReplace : τ' → τ → τ} {first : Attempt σ' α} {second : Attempt τ' α}
    (agree : Agree partAlike (first (part state)) (second (otherPart twin)))
    (whole : ∀ next other, partAlike next other →
      alike (replace next state) (otherReplace other twin)) :
    Agree alike (onPart part replace first state) (onPart otherPart otherReplace second twin) := by
  unfold onPart
  cases left : first (part state) <;> cases right : second (otherPart twin) <;>
    (rw [left, right] at agree; cases agree)
  case ok.ok next other reached => exact .ok (whole next other reached)
  case error.error next other reached => exact .error (whole next other reached)

end RecordMapping.Attempt

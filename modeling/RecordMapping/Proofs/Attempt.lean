import RecordMapping.Attempt
import RecordMapping.Proofs.Outcome

/-!
# Laws of attempts

A law says how the state that an attempt leaves lies to the state that it found, and which errors
the attempt may report. It speaks of failed attempts as well as of successful ones, because what
was changed before an error stays changed. Laws are reflexive and transitive, so that an attempt
keeps a law as soon as its steps do.
-/

namespace RecordMapping

/-- What attempts may do to a state, and which errors they may report of it. -/
structure Law (σ : Type) where
  allows : σ → σ → Prop
  reports : σ → MappingError → Prop
  refl : ∀ state, allows state state
  trans : ∀ {first second third}, allows first second → allows second third → allows first third
  /-- An error that may be reported later may be reported from the start. -/
  carry : ∀ {first second error}, allows first second → reports second error → reports first error

/-- The law of a whole that a law of one of its parts gives. -/
def Law.comap {σ τ : Type} (law : Law τ) (part : σ → τ) : Law σ where
  allows first second := law.allows (part first) (part second)
  reports state := law.reports (part state)
  refl state := law.refl (part state)
  trans := law.trans
  carry := law.carry

/-- The law of leaving alone what is seen of a state. -/
def Law.fixing {σ β : Type} (view : σ → β) : Law σ where
  allows first second := view second = view first
  reports _ _ := True
  refl _ := rfl
  trans first second := second.trans first
  carry _ _ := trivial

/-! ## Rules -/

/-- Whether what a rule gives for a state, the next one or an error, is as the law has it. -/
def Law.Governs {σ : Type} (law : Law σ) (state : σ) : Outcome σ → Prop
  | .ok next => law.allows state next
  | .error error => law.reports state error

namespace Law

variable {σ α : Type} {law : Law σ} {state : σ}

theorem governs_bind {outcome : Outcome α} {next : α → Outcome σ}
    (reported : Reports (law.reports state) outcome)
    (governed : ∀ value, outcome = .ok value → law.Governs state (next value)) :
    law.Governs state (outcome >>= next) := by
  cases outcome with
  | ok value => exact governed value rfl
  | error error => exact reported error rfl

theorem Governs.of_ok {outcome : Outcome σ} {next : σ} (governed : law.Governs state outcome)
    (done : outcome = .ok next) : law.allows state next := by
  rw [done] at governed
  exact governed

theorem Governs.reports {outcome : Outcome σ} (governed : law.Governs state outcome) :
    Reports (law.reports state) outcome := by
  intro error failed
  rw [failed] at governed
  exact governed

end Law

namespace Attempt

variable {σ τ ρ α β : Type} {law : Law σ} {state : σ}

/-- An attempt keeps a law on the state that it is made on. -/
def Keeps (law : Law σ) (attempt : Attempt σ α) (state : σ) : Prop :=
  match attempt state with
  | .ok _ next => law.allows state next
  | .error error next => law.allows state next ∧ law.reports state error

theorem bind_of_ok {first : Attempt σ α} {next : α → Attempt σ β} {value : α} {middle : σ}
    (done : first state = .ok value middle) : (first >>= next) state = next value middle := by
  change EStateM.bind first next state = _
  rw [EStateM.bind, done]

theorem bind_of_error {first : Attempt σ α} {next : α → Attempt σ β} {error : MappingError}
    {middle : σ} (failed : first state = .error error middle) :
    (first >>= next) state = .error error middle := by
  change EStateM.bind first next state = _
  rw [EStateM.bind, failed]

theorem get_bind (next : σ → Attempt σ β) : (get >>= next) state = next state state :=
  bind_of_ok rfl

/-! ## What is known of an attempt that keeps a law -/

/-- Whether a law is kept shows in the result of the attempt and the state that it leaves. -/
theorem keeps_outcome {attempt : Attempt σ α} (allowed : law.allows state (attempt.outcome state).2)
    (reported : Reports (law.reports state) (attempt.outcome state).1) :
    attempt.Keeps law state := by
  unfold outcome at allowed reported
  unfold Keeps
  cases done : attempt state with
  | ok value next =>
      rw [done] at allowed
      exact allowed
  | error error next =>
      rw [done] at allowed reported
      exact ⟨allowed, reported error rfl⟩

theorem Keeps.of_ok {attempt : Attempt σ α} (keeps : attempt.Keeps law state) {value : α}
    {next : σ} (done : attempt state = .ok value next) : law.allows state next := by
  rw [Keeps, done] at keeps
  exact keeps

theorem Keeps.of_error {attempt : Attempt σ α} (keeps : attempt.Keeps law state)
    {error : MappingError} {next : σ} (failed : attempt state = .error error next) :
    law.allows state next ∧ law.reports state error := by
  rw [Keeps, failed] at keeps
  exact keeps

theorem Keeps.allows {attempt : Attempt σ α} (keeps : attempt.Keeps law state) :
    law.allows state (attempt.outcome state).2 := by
  unfold outcome
  cases done : attempt state with
  | ok value next => exact keeps.of_ok done
  | error error next => exact (keeps.of_error done).1

/-! ## Steps -/

theorem keeps_pure (value : α) : Keeps law (pure value) state :=
  law.refl state

theorem keeps_throw {error : MappingError} (reported : law.reports state error) :
    Keeps law (throw error : Attempt σ α) state :=
  ⟨law.refl state, reported⟩

theorem keeps_set {next : σ} (allowed : law.allows state next) :
    Keeps law (set next : Attempt σ PUnit) state :=
  allowed

theorem keeps_modify {change : σ → σ} (allowed : law.allows state (change state)) :
    Keeps law (modify change : Attempt σ PUnit) state :=
  allowed

theorem keeps_ofOutcome {outcome : Outcome α}
    (reported : Reports (law.reports state) outcome) :
    Keeps law (ofOutcome outcome) state := by
  cases outcome with
  | ok value => exact law.refl state
  | error error => exact ⟨law.refl state, reported error rfl⟩

theorem keeps_update {change : σ → Outcome σ} (governed : law.Governs state (change state)) :
    Keeps law (update change) state := by
  unfold Keeps update
  cases changed : change state with
  | ok next => exact governed.of_ok changed
  | error error => exact ⟨law.refl state, governed.reports error changed⟩

theorem keeps_bind {first : Attempt σ α} {next : α → Attempt σ β} (keeps : first.Keeps law state)
    (keepsNext : ∀ value middle, first state = .ok value middle → (next value).Keeps law middle) :
    (first >>= next).Keeps law state := by
  unfold Keeps
  cases done : first state with
  | error error middle =>
      rw [bind_of_error done]
      exact keeps.of_error done
  | ok value middle =>
      have reached := keeps.of_ok done
      have rest := keepsNext value middle done
      unfold Keeps at rest
      rw [bind_of_ok done]
      cases finished : next value middle with
      | ok result last =>
          rw [finished] at rest
          exact law.trans reached rest
      | error error last =>
          rw [finished] at rest
          exact ⟨law.trans reached rest.1, law.carry reached rest.2⟩

theorem keeps_get_bind {next : σ → Attempt σ β} (keeps : (next state).Keeps law state) :
    Keeps law (get >>= next) state :=
  keeps_bind (law.refl state) (by rintro _ _ ⟨⟩; exact keeps)

theorem keeps_outcome_bind {outcome : Outcome α} {next : α → Attempt σ β}
    (reported : Reports (law.reports state) outcome)
    (keeps : ∀ value, outcome = .ok value → (next value).Keeps law state) :
    Keeps law ((liftM outcome : Attempt σ α) >>= next) state := by
  apply keeps_bind (keeps_ofOutcome reported)
  cases outcome with
  | ok value => rintro _ _ ⟨⟩; exact keeps value rfl
  | error error => rintro _ _ ⟨⟩

theorem update_eq_ok_iff {change : σ → Outcome σ} {next : σ} :
    update change state = .ok () next ↔ change state = .ok next := by
  unfold update
  cases change state with
  | ok made => simp
  | error error => simp

/-! ## Attempts made of others -/

theorem keeps_each {items : List τ} {attempt : τ → Attempt σ Unit}
    (keeps : ∀ item ∈ items, ∀ state, (attempt item).Keeps law state) :
    (each items attempt).Keeps law state := by
  induction items generalizing state with
  | nil => exact keeps_pure ()
  | cons item rest ih =>
      obtain ⟨keepsItem, keepsRest⟩ := List.forall_mem_cons.mp keeps
      exact keeps_bind (keepsItem state) fun _ _ _ => ih keepsRest

theorem keeps_tolerant {attempt : Attempt σ Unit} (keeps : attempt.Keeps law state) :
    attempt.tolerant.Keeps law state := by
  unfold Keeps tolerant
  cases done : attempt state with
  | ok value next => exact keeps.of_ok done
  | error error next =>
      by_cases provisional : error.isProvisional
      · simp only [provisional, ↓reduceIte]
        exact (keeps.of_error done).1
      · simp only [provisional, Bool.false_eq_true, ↓reduceIte]
        exact keeps.of_error done

/-- An attempt on a part keeps a law of the whole if that law follows from one of the part. -/
theorem keeps_onPart {partLaw : Law τ} {part : σ → τ} {replace : τ → σ → σ}
    {attempt : Attempt τ α} (keeps : attempt.Keeps partLaw (part state))
    (allowed : ∀ next, partLaw.allows (part state) next → law.allows state (replace next state))
    (reported : ∀ error, partLaw.reports (part state) error → law.reports state error) :
    (onPart part replace attempt).Keeps law state := by
  unfold Keeps onPart
  cases done : attempt (part state) with
  | ok value next => exact allowed next (keeps.of_ok done)
  | error error next =>
      obtain ⟨allowedPart, reportedPart⟩ := keeps.of_error done
      exact ⟨allowed next allowedPart, reported error reportedPart⟩

/-- An attempt on a part fixes what does not depend on that part. -/
theorem keeps_onPart_fixing {γ : Type} {view : σ → γ} {part : σ → τ} {replace : τ → σ → σ}
    {attempt : Attempt τ α} (apart : ∀ next, view (replace next state) = view state) :
    (onPart part replace attempt).Keeps (Law.fixing view) state := by
  unfold Keeps onPart
  cases attempt (part state) with
  | ok value next => exact apart next
  | error error next => exact ⟨apart next, trivial⟩

/-- The same of an attempt on a local value together with the state. -/
theorem keeps_withLocal {wholeLaw : Law ρ} {attempt : Attempt ρ α} {start : τ} {join : τ → σ → ρ}
    {split : σ → ρ → τ × σ} (keeps : attempt.Keeps wholeLaw (join start state))
    (allowed : ∀ next, wholeLaw.allows (join start state) next →
      law.allows state (split state next).2)
    (reported : ∀ error, wholeLaw.reports (join start state) error → law.reports state error) :
    (withLocal attempt start join split).Keeps law state := by
  unfold Keeps withLocal
  cases done : attempt (join start state) with
  | ok value next => exact allowed next (keeps.of_ok done)
  | error error next =>
      obtain ⟨allowedWhole, reportedWhole⟩ := keeps.of_error done
      exact ⟨allowed next allowedWhole, reported error reportedWhole⟩

theorem onPart_of_ok {part : σ → τ} {replace : τ → σ → σ} {attempt : Attempt τ α} {value : α}
    {next : τ} (done : attempt (part state) = .ok value next) :
    onPart part replace attempt state = .ok value (replace next state) := by
  rw [onPart, done]

theorem onPart_of_error {part : σ → τ} {replace : τ → σ → σ} {attempt : Attempt τ α}
    {error : MappingError} {next : τ} (failed : attempt (part state) = .error error next) :
    onPart part replace attempt state = .error error (replace next state) := by
  rw [onPart, failed]

theorem outcome_onPart (part : σ → τ) (replace : τ → σ → σ) (attempt : Attempt τ α) (state : σ) :
    (onPart part replace attempt).outcome state =
      ((attempt.outcome (part state)).1, replace (attempt.outcome (part state)).2 state) := by
  unfold outcome onPart
  cases attempt (part state) <;> rfl

theorem each_singleton (item : τ) (attempt : τ → Attempt σ Unit) :
    each [item] attempt = attempt item :=
  bind_pure_unit

theorem each_append (first second : List τ) (attempt : τ → Attempt σ Unit) :
    each (first ++ second) attempt = each first attempt >>= fun _ => each second attempt := by
  induction first with
  | nil => rfl
  | cons item rest ih =>
      change (attempt item >>= fun _ => each (rest ++ second) attempt) =
        (attempt item >>= fun _ => each rest attempt) >>= fun _ => each second attempt
      rw [ih, bind_assoc]

/-! ## Successful attempts -/

/-- What a successful attempt gives and leaves. -/
def Gives (attempt : Attempt σ α) (state : σ) (value : α) (next : σ) : Prop :=
  attempt state = .ok value next

theorem Gives.pure {given value : α} {next : σ}
    (done : Gives (pure given : Attempt σ α) state value next) : value = given ∧ next = state := by
  obtain ⟨rfl, rfl⟩ := EStateM.Result.ok.inj done
  exact ⟨rfl, rfl⟩

theorem gives_of_outcome {attempt : Attempt σ α} {value : α}
    (done : (attempt.outcome state).1 = .ok value) :
    attempt.Gives state value (attempt.outcome state).2 := by
  unfold outcome at done ⊢
  unfold Gives
  cases made : attempt state with
  | ok given next =>
      rw [made] at done
      obtain rfl := Except.ok.inj done
      rfl
  | error error next =>
      rw [made] at done
      contradiction

theorem Gives.outcome {attempt : Attempt σ α} {value : α} {next : σ}
    (done : attempt.Gives state value next) : attempt.outcome state = (.ok value, next) := by
  rw [Attempt.outcome, done]

theorem not_gives_throw {error : MappingError} {value : α} {next : σ} :
    ¬ Gives (throw error : Attempt σ α) state value next :=
  nofun

theorem Gives.get_bind {next : σ → Attempt σ β} {result : β} {last : σ}
    (done : (get >>= next).Gives state result last) : (next state).Gives state result last := by
  rw [Gives, Attempt.get_bind] at done
  exact done

theorem Gives.bind {first : Attempt σ α} {next : α → Attempt σ β} {result : β} {last : σ}
    (done : (first >>= next).Gives state result last) :
    ∃ value middle, first.Gives state value middle ∧ (next value).Gives middle result last := by
  unfold Gives at done
  cases started : first state with
  | ok value middle =>
      rw [bind_of_ok started] at done
      exact ⟨value, middle, started, done⟩
  | error error middle =>
      rw [bind_of_error started] at done
      contradiction

theorem gives_bind_iff {first : Attempt σ α} {next : α → Attempt σ β} {result : β} {last : σ} :
    (first >>= next).Gives state result last ↔
      ∃ value middle, first.Gives state value middle ∧ (next value).Gives middle result last := by
  constructor
  · exact Gives.bind
  · rintro ⟨value, middle, started, finished⟩
    exact (bind_of_ok started).trans finished

theorem Gives.lift {outcome : Outcome α} {value : α} {next : σ}
    (done : Gives (liftM outcome : Attempt σ α) state value next) :
    outcome = .ok value ∧ next = state := by
  cases outcome with
  | ok given =>
      obtain ⟨rfl, rfl⟩ := EStateM.Result.ok.inj done
      exact ⟨rfl, rfl⟩
  | error error => contradiction

theorem Gives.onPart {part : σ → τ} {replace : τ → σ → σ} {attempt : Attempt τ α} {value : α}
    {next : σ} (done : (onPart part replace attempt).Gives state value next) :
    ∃ left, attempt.Gives (part state) value left ∧ next = replace left state := by
  unfold Gives Attempt.onPart at done
  cases started : attempt (part state) with
  | ok given left =>
      rw [started] at done
      obtain ⟨rfl, rfl⟩ := EStateM.Result.ok.inj done
      exact ⟨left, started, rfl⟩
  | error error left =>
      rw [started] at done
      contradiction

/-- An attempt that was made for all items was made for each of them at some point on the way. -/
theorem Gives.each_mem {items : List τ} {attempt : τ → Attempt σ Unit} {final : σ} {item : τ}
    (done : (each items attempt).Gives state () final)
    (keeps : ∀ item ∈ items, ∀ state, (attempt item).Keeps law state) (member : item ∈ items) :
    ∃ before after, law.allows state before ∧ (attempt item).Gives before () after ∧
      law.allows after final := by
  induction items generalizing state with
  | nil => contradiction
  | cons first rest ih =>
      obtain ⟨keepsFirst, keepsRest⟩ := List.forall_mem_cons.mp keeps
      obtain ⟨_, middle, doneFirst, doneRest⟩ := Gives.bind done
      rcases List.mem_cons.mp member with rfl | later
      · exact ⟨state, middle, law.refl state, doneFirst, (keeps_each keepsRest).of_ok doneRest⟩
      · obtain ⟨before, after, toBefore, made, toFinal⟩ := ih doneRest keepsRest later
        have fromStart := law.trans ((keepsFirst state).of_ok doneFirst) toBefore
        exact ⟨before, after, fromStart, made, toFinal⟩

/-- Attempts that succeed for each item, and keep to what holds of the state, succeed for all. -/
theorem each_of_ok {items : List τ} {attempt : τ → Attempt σ Unit} {stays : σ → Prop}
    (step : ∀ item ∈ items, ∀ state, stays state →
      ∃ next, attempt item state = .ok () next ∧ stays next) (start : stays state) :
    ∃ next, each items attempt state = .ok () next ∧ stays next := by
  induction items generalizing state with
  | nil => exact ⟨state, rfl, start⟩
  | cons item rest ih =>
      obtain ⟨stepItem, stepRest⟩ := List.forall_mem_cons.mp step
      obtain ⟨middle, done, reached⟩ := stepItem state start
      obtain ⟨next, doneRest, stayed⟩ := ih stepRest reached
      exact ⟨next, (bind_of_ok done).trans doneRest, stayed⟩

/-! ## Failed attempts -/

/-- What a failed attempt reports and leaves. -/
def Fails (attempt : Attempt σ α) (state : σ) (error : MappingError) (next : σ) : Prop :=
  attempt state = .error error next

variable {error : MappingError} {last : σ}

theorem not_fails_pure {value : α} : ¬ Fails (pure value : Attempt σ α) state error last :=
  nofun

theorem Fails.lift {outcome : Outcome α}
    (failed : Fails (liftM outcome : Attempt σ α) state error last) :
    outcome = .error error ∧ last = state := by
  cases outcome with
  | ok value => contradiction
  | error cause =>
      obtain ⟨rfl, rfl⟩ := EStateM.Result.error.inj failed
      exact ⟨rfl, rfl⟩

theorem Fails.update {change : σ → Outcome σ} (failed : (update change).Fails state error last) :
    last = state := by
  unfold Fails Attempt.update at failed
  cases changed : change state with
  | ok next =>
      rw [changed] at failed
      contradiction
  | error cause =>
      rw [changed] at failed
      exact (EStateM.Result.error.inj failed).2.symm

theorem Fails.bind {first : Attempt σ α} {next : α → Attempt σ β}
    (failed : (first >>= next).Fails state error last) :
    first.Fails state error last ∨
      ∃ value middle, first.Gives state value middle ∧ (next value).Fails middle error last := by
  unfold Fails at failed
  cases started : first state with
  | ok value middle =>
      rw [bind_of_ok started] at failed
      exact .inr ⟨value, middle, started, failed⟩
  | error cause middle =>
      rw [bind_of_error started] at failed
      obtain ⟨rfl, rfl⟩ := EStateM.Result.error.inj failed
      exact .inl started

end Attempt

end RecordMapping

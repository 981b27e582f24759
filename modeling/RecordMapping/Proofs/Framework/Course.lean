import RecordMapping.Proofs.Framework.Log

/-!
# Courses of requests

A log of requests is a `Course` if each request may come where it does and none of them ended the
call. An attempt leads from one course to a longer one, or ends it with the request that failed for
good (`Attempt.Leads`); attempts lead somewhere as soon as their steps do.
-/

namespace RecordMapping

open Attempt

variable {World σ τ α β ι : Type}

/-- A log each of whose requests may come after those before it, and does not end the call. -/
inductive Course (may : List (Entry World) → Entry World → Prop) : List (Entry World) → Prop where
  | start : Course may []
  | next {log : List (Entry World)} {entry : Entry World} (sofar : Course may log)
      (allowed : may log entry) (goesOn : entry.stops = none) : Course may (log ++ [entry])

/-- A course that an error ended: the error of its last request, or one that no request gave. -/
def Course.Ended (may : List (Entry World) → Entry World → Prop) (error : MappingError)
    (log : List (Entry World)) : Prop :=
  Course may log ∨ ∃ earlier entry, log = earlier ++ [entry] ∧ Course may earlier ∧
    may earlier entry ∧ entry.stops = some error

namespace Course

variable {may : List (Entry World) → Entry World → Prop} {log before after : List (Entry World)}
  {entry : Entry World}

theorem split (course : Course may log)
    (parts : log = before ++ entry :: after) : may before entry ∧ entry.stops = none := by
  induction course generalizing before after with
  | start => exact (List.append_ne_nil_of_right_ne_nil _ (List.cons_ne_nil _ _) parts.symm).elim
  | @next sofar last _ allowed goesOn ih =>
      rcases List.eq_nil_or_concat after with rfl | ⟨others, other, rfl⟩
      · obtain ⟨rfl, same⟩ := List.append_inj' parts rfl
        obtain rfl := List.singleton_inj.mp same
        exact ⟨allowed, goesOn⟩
      · rw [List.concat_eq_append, ← List.cons_append, ← List.append_assoc] at parts
        exact ih (List.append_inj' parts rfl).1

/-- An ended course: each request may come where it does, and only the last one may end it. -/
theorem Ended.split {error : MappingError} (ended : Course.Ended may error log)
    (parts : log = before ++ entry :: after) :
    may before entry ∧ ∀ stop, entry.stops = some stop → after = [] ∧ error = stop := by
  rcases ended with course | ⟨earlier, last, rfl, course, allowed, stops⟩
  · obtain ⟨allowed, goesOn⟩ := course.split parts
    refine ⟨allowed, fun stop stopped => ?_⟩
    rw [goesOn] at stopped
    contradiction
  · rcases List.eq_nil_or_concat after with rfl | ⟨others, other, rfl⟩
    · obtain ⟨rfl, same⟩ := List.append_inj' parts rfl
      obtain rfl := List.singleton_inj.mp same
      refine ⟨allowed, fun stop stopped => ⟨rfl, ?_⟩⟩
      exact Option.some.inj (stops.symm.trans stopped)
    · rw [List.concat_eq_append, ← List.cons_append, ← List.append_assoc] at parts
      obtain ⟨allowed, goesOn⟩ := course.split (List.append_inj' parts rfl).1
      refine ⟨allowed, fun stop stopped => ?_⟩
      rw [goesOn] at stopped
      contradiction

end Course

namespace Attempt

/-- What an attempt makes of a log: as asked for a success, and an ended course for a failure. -/
def Leads (may : List (Entry World) → Entry World → Prop) (log : σ → List (Entry World))
    (attempt : Attempt σ α) (state : σ) (going : α → σ → Prop) : Prop :=
  match attempt state with
  | .ok value next => going value next
  | .error error next => Course.Ended may error (log next)

variable {may : List (Entry World) → Entry World → Prop} {log : σ → List (Entry World)}
  {state : σ} {going : α → σ → Prop} {goingOn : β → σ → Prop}

theorem leads_pure {value : α} (there : going value state) :
    Leads may log (pure value : Attempt σ α) state going :=
  there

theorem leads_throw {error : MappingError} (sofar : Course may (log state)) :
    Leads may log (throw error : Attempt σ α) state going :=
  .inl sofar

theorem leads_bind {first : Attempt σ α} {next : α → Attempt σ β}
    (leads : first.Leads may log state going)
    (later : ∀ value middle, going value middle → (next value).Leads may log middle goingOn) :
    (first >>= next).Leads may log state goingOn := by
  unfold Leads at leads ⊢
  cases done : first state with
  | ok value middle =>
      rw [done] at leads
      rw [bind_of_ok done]
      exact later value middle leads
  | error error middle =>
      rw [done] at leads
      rw [bind_of_error done]
      exact leads

theorem leads_get_bind {next : σ → Attempt σ β}
    (leads : (next state).Leads may log state goingOn) :
    Leads may log (get >>= next) state goingOn := by
  unfold Leads
  rw [get_bind]
  exact leads

theorem leads_modify_bind {change : σ → σ} {next : PUnit → Attempt σ β}
    (leads : (next ()).Leads may log (change state) goingOn) :
    Leads may log (modify change >>= next) state goingOn :=
  leads

theorem leads_outcome_bind {outcome : Outcome α} {next : α → Attempt σ β}
    (sofar : Course may (log state))
    (leads : ∀ value, (next value).Leads may log state goingOn) :
    Leads may log ((liftM outcome : Attempt σ α) >>= next) state goingOn := by
  cases outcome with
  | ok value => exact leads value
  | error error => exact .inl sofar

theorem leads_onPart {part : σ → τ} {replace : τ → σ → σ} {attempt : Attempt τ α}
    {logPart : τ → List (Entry World)} {goingPart : α → τ → Prop}
    (leads : attempt.Leads may logPart (part state) goingPart)
    (logs : ∀ next, log (replace next state) = logPart next)
    (goes : ∀ value next, goingPart value next → going value (replace next state)) :
    (onPart part replace attempt).Leads may log state going := by
  unfold Leads onPart at *
  cases done : attempt (part state) with
  | ok value next =>
      rw [done] at leads
      exact goes value next leads
  | error error next =>
      rw [done] at leads
      simp only [logs]
      exact leads

/-- Requests that are planned for items are made for them in order, up to the first failure. -/
theorem leads_each (request : ι → Request) (calling : List Request → σ → Prop) {items : List ι}
    {attempt : ι → Attempt σ Unit} {plan made : List Request}
    (step : ∀ item ∈ items, ∀ made state, calling made state → made ++ [request item] <+: plan →
      (attempt item).Leads may log state fun _ => calling (made ++ [request item]))
    (called : calling made state) (planned : made ++ items.map request <+: plan) :
    (each items attempt).Leads may log state fun _ => calling (made ++ items.map request) := by
  induction items generalizing made state with
  | nil =>
      rw [List.map_nil, List.append_nil]
      exact leads_pure called
  | cons item rest ih =>
      obtain ⟨here, others⟩ := List.forall_mem_cons.mp step
      rw [List.map_cons, List.append_cons] at planned ⊢
      apply leads_bind (here made state called ((List.prefix_append _ _).trans planned))
      exact fun _ _ calledHere => ih others calledHere planned

theorem Leads.of_ok {attempt : Attempt σ α} (leads : attempt.Leads may log state going) {value : α}
    {next : σ} (done : attempt.Gives state value next) : going value next := by
  rw [Leads, done] at leads
  exact leads

theorem Leads.outcome {attempt : Attempt σ α} (leads : attempt.Leads may log state going) :
    (∃ value, (attempt.outcome state).1 = .ok value ∧ going value (attempt.outcome state).2) ∨
      ∃ error, (attempt.outcome state).1 = .error error ∧
        Course.Ended may error (log (attempt.outcome state).2) := by
  unfold Leads at leads
  unfold Attempt.outcome
  cases done : attempt state with
  | ok value next =>
      rw [done] at leads
      exact .inl ⟨value, rfl, leads⟩
  | error error next =>
      rw [done] at leads
      exact .inr ⟨error, rfl, leads⟩

end Attempt

namespace Recorder

variable {may : List (Entry World) → Entry World → Prop} {request : Request} {ρ : Type}
  (recorder : Recorder World σ ρ) {state : ρ}

/-- A request to store objects makes a course longer, or ends it. -/
theorem note_leads {given : α → Option Reference} {attempt : Attempt σ α} {going : α → ρ → Prop}
    (stores : request.stores = true) (sofar : Course may (recorder.log state))
    (allowed : ∀ answer,
      may (recorder.log state) ⟨request, recorder.world (recorder.bare state), answer⟩)
    (goes : ∀ value next entry,
      entry = ⟨request, recorder.world (recorder.bare state), .ok (given value)⟩ →
        Course may (recorder.log state ++ [entry]) →
          going value (recorder.join next (recorder.log state ++ [entry]))) :
    (recorder.note request given attempt).Leads may recorder.log state going := by
  unfold Leads note
  cases attempt (recorder.bare state) with
  | ok value next => exact goes value next _ rfl (sofar.next (allowed _) rfl)
  | error error next =>
      refine .inr ⟨_, _, recorder.log_join _ _, sofar, allowed _, ?_⟩
      simp only [Entry.stops, stores, Bool.not_true, Bool.false_and, Bool.false_eq_true, ↓reduceIte]

/-- A reference or a callback makes a course longer, or ends it. -/
theorem note_tolerant_leads {attempt : Attempt σ Unit} {going : Unit → ρ → Prop}
    (hook : request.stores = false) (sofar : Course may (recorder.log state))
    (allowed : ∀ entry : Entry World, entry.request = request → may (recorder.log state) entry)
    (goes : ∀ next (entry : Entry World), entry.request = request →
      Course may (recorder.log state ++ [entry]) →
        going () (recorder.join next (recorder.log state ++ [entry]))) :
    (recorder.note request (fun _ => none) attempt).tolerant.Leads may recorder.log state going := by
  obtain ⟨entry, asked, -, went⟩ := recorder.note_tolerant_cases state attempt hook
  unfold Leads
  cases made : attempt.tolerant (recorder.bare state) with
  | ok value next =>
      rw [made] at went
      rw [went.1]
      exact goes next entry asked (sofar.next (allowed entry asked) went.2)
  | error error next =>
      rw [made] at went
      rw [went.1]
      exact .inr ⟨_, entry, recorder.log_join _ _, sofar, allowed entry asked, went.2⟩

end Recorder

end RecordMapping

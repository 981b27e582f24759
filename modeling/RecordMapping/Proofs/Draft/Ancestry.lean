import RecordMapping.Proofs.Draft.Run

/-!
# The ancestry of a record during a run

Between any two moments of a run the key turns once. So a record keeps its kind, a parent that it
has once it has for good, and known records are never given another one.
-/

namespace RecordMapping.Draft

variable {mapper : Mapper} {object : Reference} {start : Draft} {calls : List DraftCall}
  {earlier later : Nat}

/-- A call that changes the parent finds none and gives one. -/
theorem parent?_of_change (modest : ∀ call ∈ calls, call.KeepsKeys) {count : Nat}
    (changed : (start.moment mapper calls (count + 1)).record.parent? ≠
      (start.moment mapper calls count).record.parent?) :
    (start.moment mapper calls count).record.parent? = none ∧
      (start.moment mapper calls (count + 1)).record.parent?.isSome := by
  have turn : Turn _ (start.moment mapper calls count)
      (start.moment mapper calls (count + 1)) := moment_turn modest (Nat.le_succ count)
  cases found : (start.moment mapper calls count).record.parent? with
  | none =>
      refine ⟨rfl, Option.isSome_iff_ne_none.mpr ?_⟩
      rw [found] at changed
      exact changed
  | some parent =>
      rw [turn.parent?_eq found, found] at changed
      contradiction

theorem not_lt_of_changes (modest : ∀ call ∈ calls, call.KeepsKeys)
    (changedEarlier : (start.moment mapper calls (earlier + 1)).record.parent? ≠
      (start.moment mapper calls earlier).record.parent?)
    (changedLater : (start.moment mapper calls (later + 1)).record.parent? ≠
      (start.moment mapper calls later).record.parent?) : ¬ earlier < later := by
  intro before
  obtain ⟨-, given⟩ := parent?_of_change modest changedEarlier
  obtain ⟨missing, -⟩ := parent?_of_change modest changedLater
  have turn : Turn _ (start.moment mapper calls (earlier + 1))
      (start.moment mapper calls later) := moment_turn modest before
  have kept := turn.parent?_isSome given
  rw [missing] at kept
  contradiction

/-- **Kind and ancestry during a run.** After any number of calls, successful or not, the kind is
that of the class. A parent that was there once stays. The parent of a known record never changes,
and neither does its key if it was complete. A new record starts without a parent and is given one
at most once. No call finds of its own that a record would be given a parent a second time. -/
theorem ancestry_of_run (opened : mapper.Opens object start)
    (modest : ∀ call ∈ calls, call.KeepsKeys) :
    (∀ count,
      let draft := start.moment mapper calls count
      mapper.schema object.className = .ok draft.schema ∧
        draft.key.kind = draft.record.kind ∧ draft.record.kind = draft.schema.kind) ∧
    (∀ earlier later parent, earlier ≤ later →
      (start.moment mapper calls earlier).record.parent? = some parent →
      (start.moment mapper calls later).record.parent? = some parent) ∧
    (start.operation = .update → ∀ count,
      (start.moment mapper calls count).record.parent? = start.record.parent? ∧
        (start.key.isComplete → (start.moment mapper calls count).key = start.key)) ∧
    (start.operation = .insert → start.record.parent? = none ∧
      ∀ first second,
        (start.moment mapper calls (first + 1)).record.parent? ≠
          (start.moment mapper calls first).record.parent? →
        (start.moment mapper calls (second + 1)).record.parent? ≠
          (start.moment mapper calls second).record.parent? →
        first = second) ∧
    (∀ count (call : DraftCall) current attempted next, calls[count]? = some call →
      call.attempt mapper (start.moment mapper calls count) =
        .error (.internal (.ancestryRebuilt current attempted)) next →
      call.MayReport mapper (.internal (.ancestryRebuilt current attempted))) := by
  have fromStart (count : Nat) : Turn _ start (start.moment mapper calls count) :=
    moment_turn modest (Nat.zero_le count)
  have sound (count : Nat) : (start.moment mapper calls count).IsSound :=
    moment_isSound opened.isSound modest count
  refine ⟨?kind, ?parent, ?known, ?new, ?rebuild⟩
  case kind =>
    intro count
    refine ⟨?_, rfl, (sound count).kind⟩
    rw [(fromStart count).schema]
    exact opened.schema
  case parent =>
    intro earlier later parent ordered found
    exact (moment_turn modest ordered).parent?_eq found
  case known =>
    intro known count
    exact ⟨(fromStart count).parent?_eq_of_update known, (fromStart count).key_eq_of_update known⟩
  case new =>
    intro new
    refine ⟨opened.parent?_eq_none new, ?_⟩
    intro first second changedFirst changedSecond
    apply Nat.le_antisymm
    · exact Nat.le_of_not_lt (not_lt_of_changes modest changedSecond changedFirst)
    · exact Nat.le_of_not_lt (not_lt_of_changes modest changedFirst changedSecond)
  case rebuild =>
    intro count call current attempted next found failed
    have modestCall := modest call (List.mem_of_getElem? found)
    obtain ⟨-, reported⟩ := (DraftCall.attempt_keeps modestCall).of_error failed
    exact reported (sound count) rfl

/-- A new book takes the key of a library and keeps it when its id is assigned. -/
theorem ancestry_of_run_book :
    let calls : List DraftCall := [.fillField (fun _ => none) 1 (.key library),
      .assignKey ⟨[⟨"Library", .name "central"⟩], "Book", some (.id 7)⟩]
    (newBook.moment bookMapper calls 1).record.parent? = some library ∧
      (newBook.moment bookMapper calls 2).record.parent? = some library := by
  intro calls
  have modest : ∀ call ∈ calls, call.KeepsKeys := by simp [calls, DraftCall.KeepsKeys]
  have given : (newBook.moment bookMapper calls 1).record.parent? = some library := rfl
  exact ⟨given, (ancestry_of_run newBook_opens modest).2.1 1 2 library (by decide) given⟩

end RecordMapping.Draft

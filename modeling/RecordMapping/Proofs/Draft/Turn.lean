import RecordMapping.Draft.Placement
import RecordMapping.Proofs.Attempt
import RecordMapping.Proofs.Key.Build

/-!
# What a step does to the key of a draft

However many rules lead to the key, a step turns it in one of three ways only: it keeps the key, it
spells out an incomplete key under the same parent, or it places a new record that has no parent
under one. One turn after another is a turn again, since a record that is placed has a parent. So
whatever holds of a turn holds of a whole run.

Placing keeps the identifier, with one exception. The rule for the parent's field takes a key that
no field has set for one without an identifier, although the store may have assigned it by then
(`Draft.LosesKeyUnder`); turns carry that condition along.
-/

namespace RecordMapping

namespace Draft

variable {draft before after : Draft} {key parent : Key} {loses loses' : Prop}

/-! ## Turns -/

/-- How a step turns the key of a draft, given when it takes the identifier away. -/
inductive KeyTurn (loses : Prop) (before after : Draft) : Prop where
  | kept (key : after.key = before.key) (origin : after.parentOrigin = before.parentOrigin)
  | spelled (missing : before.key.isComplete = false) (kind : after.key.kind = before.key.kind)
      (parent : after.record.parent? = before.record.parent?)
      (origin : after.parentOrigin = before.parentOrigin)
  | placed (new : before.operation = .insert) (rootless : before.record.parent? = none)
      (kind : after.key.kind = before.key.kind) (parent : after.record.parent?.isSome)
      (identifier : before.key.isComplete → ¬ loses → after.key.identifier = before.key.identifier)

/-- A step that goes on with the same object and turns its key. -/
structure Turn (loses : Prop) (before after : Draft) : Prop where
  object : after.object = before.object
  schema : after.schema = before.schema
  operation : after.operation = before.operation
  key : KeyTurn loses before after

theorem Turn.refl : Turn loses draft draft :=
  ⟨rfl, rfl, rfl, .kept rfl rfl⟩

/-- The relations that wait for the key have no part in it. -/
theorem Turn.withPending (draft : Draft) (pending : List Pending) :
    Turn loses draft { draft with pending } :=
  ⟨rfl, rfl, rfl, .kept rfl rfl⟩

theorem Turn.parent?_isSome (turn : Turn loses before after)
    (found : before.record.parent?.isSome) : after.record.parent?.isSome := by
  cases turn.key with
  | kept same _ =>
      have parent : after.record.parent? = before.record.parent? := congrArg Key.parent? same
      rw [parent]
      exact found
  | spelled _ _ parent _ =>
      rw [parent]
      exact found
  | placed _ _ _ parent _ => exact parent

/-- **Turns compose.** What comes after a placing keeps the parent, and what comes before it had
none. -/
theorem Turn.trans {middle : Draft} (first : Turn loses before middle)
    (second : Turn loses middle after) : Turn loses before after := by
  refine ⟨second.object.trans first.object, second.schema.trans first.schema,
    second.operation.trans first.operation, ?_⟩
  cases second.key with
  | kept key origin =>
      have parent : after.record.parent? = middle.record.parent? := congrArg Key.parent? key
      cases first.key with
      | kept key' origin' => exact .kept (key.trans key') (origin.trans origin')
      | spelled missing kind parent' origin' =>
          exact .spelled missing (by rw [key, kind]) (parent.trans parent') (origin.trans origin')
      | placed new rootless kind parent' identifier =>
          refine .placed new rootless (by rw [key, kind]) (by rw [parent]; exact parent') ?_
          intro complete safe
          rw [key, identifier complete safe]
  | spelled missing kind parent origin =>
      cases first.key with
      | kept key' origin' =>
          rw [key'] at missing kind
          exact .spelled missing kind (parent.trans (congrArg Key.parent? key'))
            (origin.trans origin')
      | spelled missing' kind' parent' origin' =>
          exact .spelled missing' (kind.trans kind') (parent.trans parent') (origin.trans origin')
      | placed new rootless kind' parent' identifier =>
          refine .placed new rootless (kind.trans kind') (by rw [parent]; exact parent') ?_
          intro complete safe
          rw [Key.isComplete, identifier complete safe] at missing
          rw [Key.isComplete, missing] at complete
          contradiction
  | placed new rootless kind parent identifier =>
      rw [first.operation] at new
      cases first.key with
      | kept key' _ =>
          rw [key'] at kind identifier
          exact .placed new ((congrArg Key.parent? key').symm.trans rootless) kind parent identifier
      | spelled missing' kind' parent' _ =>
          refine .placed new (parent'.symm.trans rootless) (kind.trans kind') parent ?_
          intro complete
          rw [missing'] at complete
          contradiction
      | placed _ _ _ parent' _ =>
          rw [rootless] at parent'
          contradiction

theorem Turn.mono (turn : Turn loses before after) (weaker : loses → loses') :
    Turn loses' before after := by
  refine ⟨turn.object, turn.schema, turn.operation, ?_⟩
  cases turn.key with
  | kept key origin => exact .kept key origin
  | spelled missing kind parent origin => exact .spelled missing kind parent origin
  | placed new rootless kind parent identifier =>
      exact .placed new rootless kind parent fun complete safe =>
        identifier complete fun loss => safe (weaker loss)

/-- Where the key came from is no part of a turn. -/
theorem Turn.withKeyOrigin (turn : Turn loses before after) (origin : Option KeyOrigin) :
    Turn loses before { after with keyOrigin := origin } := by
  refine ⟨turn.object, turn.schema, turn.operation, ?_⟩
  cases turn.key with
  | kept key origin => exact .kept key origin
  | spelled missing kind parent origin => exact .spelled missing kind parent origin
  | placed new rootless kind parent identifier =>
      exact .placed new rootless kind parent identifier

/-! ## What holds of every draft -/

/-- What holds of every draft that is reached: its kind is that of the class, a kind that keys may
have if the record is new, and a parent that was given here is there. -/
structure IsSound (draft : Draft) : Prop where
  kind : draft.key.kind = draft.schema.kind
  valid : draft.operation = .insert → Kind.check draft.schema.kind = .ok ()
  placed : draft.parentOrigin.isSome → draft.record.parent?.isSome

theorem IsSound.parentOrigin_eq_none (sound : draft.IsSound)
    (rootless : draft.record.parent? = none) : draft.parentOrigin = none := by
  apply Option.not_isSome_iff_eq_none.mp
  intro given
  have found := sound.placed given
  rw [rootless] at found
  contradiction

theorem Turn.isSound (turn : Turn loses before after) (sound : before.IsSound) :
    after.IsSound := by
  have valid : after.operation = .insert → Kind.check after.schema.kind = .ok () := by
    rw [turn.operation, turn.schema]
    exact sound.valid
  have kind : after.key.kind = before.key.kind := by
    cases turn.key with
    | kept key _ => rw [key]
    | spelled _ kind _ _ => exact kind
    | placed _ _ kind _ _ => exact kind
  refine ⟨by rw [kind, turn.schema, sound.kind], valid, ?_⟩
  intro given
  cases turn.key with
  | kept _ origin =>
      rw [origin] at given
      exact turn.parent?_isSome (sound.placed given)
  | spelled _ _ _ origin =>
      rw [origin] at given
      exact turn.parent?_isSome (sound.placed given)
  | placed _ _ _ parent _ => exact parent

/-- A parent stays. -/
theorem Turn.parent?_eq (turn : Turn loses before after) (found : before.record.parent? = some key) :
    after.record.parent? = some key := by
  cases turn.key with
  | kept same _ => exact (congrArg Key.parent? same).trans found
  | spelled _ _ parent _ => exact parent.trans found
  | placed _ rootless _ _ _ =>
      rw [rootless] at found
      contradiction

/-- Only new records are given a parent. -/
theorem Turn.parent?_eq_of_update (turn : Turn loses before after)
    (known : before.operation = .update) : after.record.parent? = before.record.parent? := by
  cases turn.key with
  | kept key _ => exact congrArg Key.parent? key
  | spelled _ _ parent _ => exact parent
  | placed new _ _ _ _ =>
      rw [known] at new
      contradiction

theorem Turn.parentOrigin_eq_of_update (turn : Turn loses before after)
    (known : before.operation = .update) : after.parentOrigin = before.parentOrigin := by
  cases turn.key with
  | kept _ origin => exact origin
  | spelled _ _ _ origin => exact origin
  | placed new _ _ _ _ =>
      rw [known] at new
      contradiction

theorem Turn.key_eq_of_update (turn : Turn loses before after)
    (known : before.operation = .update) (complete : before.key.isComplete) :
    after.key = before.key := by
  cases turn.key with
  | kept key _ => exact key
  | spelled missing _ _ _ =>
      rw [missing] at complete
      contradiction
  | placed new _ _ _ _ =>
      rw [known] at new
      contradiction

/-- A complete key keeps its last level, if the step does not take the identifier away. -/
theorem Turn.last_eq (turn : Turn loses before after) (safe : ¬ loses)
    (complete : before.key.isComplete) : after.key.last = before.key.last := by
  cases turn.key with
  | kept key _ => rw [key]
  | spelled missing _ _ _ =>
      rw [missing] at complete
      contradiction
  | placed _ _ kind _ identifier => rw [Key.last, Key.last, kind, identifier complete safe]

/-- That a sound draft would be given a parent a second time is only ever `reported` from
elsewhere. -/
def RebuildOnly (reported : MappingError → Prop) (draft : Draft) (error : MappingError) : Prop :=
  draft.IsSound → error.isRebuild → reported error

/-- The law that all changes of a draft keep: the key turns, and no rule finds on a sound draft that
it would be given a parent a second time. -/
def keyLaw (loses : Prop) (reported : MappingError → Prop) : Law Draft where
  allows := Turn loses
  reports := RebuildOnly reported
  refl _ := .refl
  trans := .trans
  carry turn reports sound := reports (turn.isSound sound)

end Draft

/-- Outcomes that never tell of a second parent do as the law asks, on whatever draft. -/
theorem Reports.spared {α : Type} {outcome : Outcome α} {reported : MappingError → Prop}
    {draft : Draft} (reports : Reports (·.isRebuild = false) outcome) :
    Reports (Draft.RebuildOnly reported draft) outcome := by
  intro error failed _ rebuild
  rw [reports error failed] at rebuild
  contradiction

namespace Draft

variable {draft : Draft} {loses loses' : Prop} {reported : MappingError → Prop}

theorem governs_error {error : MappingError} (ordinary : error.isRebuild = false) :
    (keyLaw loses reported).Governs draft (.error error) := by
  intro _ rebuild
  rw [ordinary] at rebuild
  contradiction

theorem governs_same : (keyLaw loses reported).Governs draft (.ok draft) :=
  Turn.refl

theorem governs_mono {outcome : Outcome Draft}
    (governed : (keyLaw loses reported).Governs draft outcome) (wider : loses → loses') :
    (keyLaw loses' reported).Governs draft outcome := by
  cases outcome with
  | ok next => exact Turn.mono governed wider
  | error error => exact governed

end Draft

/-- A law with a wider loss is kept as well. -/
theorem Attempt.Keeps.mono {α : Type} {attempt : Attempt Draft α} {loses loses' : Prop}
    {reported : MappingError → Prop} {draft : Draft}
    (keeps : attempt.Keeps (Draft.keyLaw loses reported) draft) (wider : loses → loses') :
    attempt.Keeps (Draft.keyLaw loses' reported) draft := by
  unfold Keeps at keeps ⊢
  cases done : attempt draft with
  | ok value next =>
      rw [done] at keeps
      exact keeps.mono wider
  | error error next =>
      rw [done] at keeps
      exact ⟨keeps.1.mono wider, keeps.2⟩

end RecordMapping

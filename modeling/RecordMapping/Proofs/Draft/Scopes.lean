import RecordMapping.Proofs.Draft.FailedFields

/-!
# The scopes of embedded objects

The embedded object that a field lies in decides the class whose fields are meant, the names of
properties, and whether a field can be part of the key. Storing a field goes down the tree of embedded
objects with that object at hand. Here the same is done by a machine that keeps the objects it is in
on a stack: it enters one by pushing it, leaves it by popping, and looks at the top only. The two
agree, and the stack is the same afterwards, whether the call succeeds or fails at whatever depth.
-/

namespace RecordMapping

open Attempt

/-- The state of a call that goes down a tree of embedded objects: the draft, and the objects that
the call is in, the innermost one first. -/
structure Descent where
  draft : Draft
  scopes : List (Embedding Field)

namespace Descent

variable {α : Type}

/-- An attempt on the draft alone. -/
def onDraft (attempt : Attempt Draft α) : Attempt Descent α :=
  attempt.onPart draft fun draft descent => { descent with draft }

/-- The state that is left when the innermost object is left. -/
def pop (descent : Descent) : Descent :=
  { descent with scopes := descent.scopes.tail }

/-- An attempt within an embedded object, which is left in any case. -/
def within (scope : Embedding Field) (attempt : Attempt Descent α) : Attempt Descent α :=
  fun descent =>
    match attempt { descent with scopes := scope :: descent.scopes } with
    | .ok value next => .ok value next.pop
    | .error error next => .error error next.pop

/-- The class whose fields are meant. -/
def currentClass (descent : Descent) : Schema :=
  (descent.scopes.head?.map Embedding.schema).getD descent.draft.schema

variable (mapper : Mapper) (knownKey : Reference → Option Key)

mutual

/-- Stores the value of a field in the record, under the name that the top of the stack gives it. -/
def storeField (position : Nat) : Field → FieldValue → Attempt Descent Unit
  | ⟨attributes, none⟩, value => do
      let field : Field := ⟨attributes, none⟩
      let descent ← get
      if field.isWrittenBy descent.draft.operation then
        onDraft (mapper.storeLeaf knownKey descent.scopes.head? position field value)
  | ⟨attributes, some ⟨⟨name, kind, inheritance, isEmbeddable, fields⟩, overrides⟩⟩, value => do
      let inner : Embedding Field := ⟨⟨name, kind, inheritance, isEmbeddable, fields⟩, overrides⟩
      let field : Field := ⟨attributes, some inner⟩
      if field.isWrittenBy (← get).draft.operation then
        let values ← Mapper.embeddedValues field inner.schema value
        within inner (storeFields 0 fields values)

/-- Stores the values of the fields of a class one after the other. -/
def storeFields (position : Nat) : List Field → List FieldValue → Attempt Descent Unit
  | [], _ => pure ()
  | field :: rest, values => do
      storeField position field (values.headD .null)
      storeFields (position + 1) rest values.tail

end

/-- Stores the value of the field at a position of the current class. Only outside all embedded
objects a field is part of the key. -/
def fillField (position : Nat) (value : FieldValue) : Attempt Descent Unit := do
  let descent ← get
  let field ← descent.currentClass.field position
  if descent.scopes.isEmpty && field.isInKey then
    onDraft (Attempt.update fun draft => draft.setInKey field value)
  else storeField mapper knownKey position field value

variable {mapper : Mapper} {knownKey : Reference → Option Key} {draft : Draft}
  {scopes : List (Embedding Field)} {scope : Embedding Field} {position : Nat}

/-- What is left on an object that was entered around an attempt on the draft is as before. -/
theorem within_onDraft {attempt : Attempt Descent α} {inner : Attempt Draft α}
    (same : attempt ⟨draft, scope :: scopes⟩ = onDraft inner ⟨draft, scope :: scopes⟩) :
    within scope attempt ⟨draft, scopes⟩ = onDraft inner ⟨draft, scopes⟩ := by
  unfold within
  simp only [same]
  unfold onDraft onPart
  cases inner draft with
  | ok value next => rfl
  | error error next => rfl

theorem onDraft_congr {first second : Attempt Draft α} (same : first draft = second draft) :
    onDraft first ⟨draft, scopes⟩ = onDraft second ⟨draft, scopes⟩ := by
  rw [onDraft, onDraft, onPart, onPart, same]

theorem onDraft_get_bind (next : Draft → Attempt Draft α) :
    onDraft (get >>= next) ⟨draft, scopes⟩ = onDraft (next draft) ⟨draft, scopes⟩ :=
  onDraft_congr (get_bind next)

theorem onDraft_bind {β : Type} {first : Attempt Descent α} {next : α → Attempt Descent β}
    {inner : Attempt Draft α} {innerNext : α → Attempt Draft β}
    (same : first ⟨draft, scopes⟩ = onDraft inner ⟨draft, scopes⟩)
    (sameNext : ∀ value middle, inner draft = .ok value middle →
      next value ⟨middle, scopes⟩ = onDraft (innerNext value) ⟨middle, scopes⟩) :
    (first >>= next) ⟨draft, scopes⟩ = onDraft (inner >>= innerNext) ⟨draft, scopes⟩ := by
  unfold onDraft
  cases done : inner draft with
  | ok value middle =>
      have started : first ⟨draft, scopes⟩ = .ok value ⟨middle, scopes⟩ := by
        rw [same, onDraft, onPart_of_ok done]
      rw [bind_of_ok started, sameNext value middle done, onDraft, onPart, onPart, bind_of_ok done]
  | error error middle =>
      have started : first ⟨draft, scopes⟩ = .error error ⟨middle, scopes⟩ := by
        rw [same, onDraft, onPart_of_error done]
      rw [bind_of_error started, onPart, bind_of_error done]

mutual

/-- **The stack says what the recursion has at hand.** The induction follows the tree of embedded
objects; a level below is entered with its object on top of the stack. -/
theorem storeField_eq : (field : Field) → (value : FieldValue) → (draft : Draft) →
    (scopes : List (Embedding Field)) → (position : Nat) →
      storeField mapper knownKey position field value ⟨draft, scopes⟩ =
        onDraft (mapper.storeField knownKey scopes.head? position field value) ⟨draft, scopes⟩
  | ⟨attributes, none⟩, value, draft, scopes, position => by
      rw [storeField, Mapper.storeField, get_bind, onDraft_get_bind]
      by_cases written : (⟨attributes, none⟩ : Field).isWrittenBy draft.operation = true
      · simp only [written, ↓reduceIte]
      · simp only [written]
        rfl
  | ⟨attributes, some ⟨⟨name, kind, inheritance, isEmbeddable, fields⟩, overrides⟩⟩, value, draft,
      scopes, position => by
      rw [storeField, Mapper.storeField, get_bind, onDraft_get_bind]
      by_cases written : Field.isWrittenBy
          ⟨attributes, some ⟨⟨name, kind, inheritance, isEmbeddable, fields⟩, overrides⟩⟩
          draft.operation = true
      · simp only [written, ↓reduceIte]
        cases Mapper.embeddedValues ⟨attributes, some ⟨⟨name, kind, inheritance, isEmbeddable,
            fields⟩, overrides⟩⟩ ⟨name, kind, inheritance, isEmbeddable, fields⟩ value with
        | error error => rfl
        | ok values =>
            exact within_onDraft (storeFields_eq fields values draft (_ :: scopes) 0)
      · simp only [written]
        rfl

theorem storeFields_eq : (fields : List Field) → (values : List FieldValue) → (draft : Draft) →
    (scopes : List (Embedding Field)) → (position : Nat) →
      storeFields mapper knownKey position fields values ⟨draft, scopes⟩ =
        onDraft (mapper.storeFields knownKey scopes.head? position fields values) ⟨draft, scopes⟩
  | [], _, _, _, _ => by
      rfl
  | field :: rest, values, draft, scopes, position => by
      rw [storeFields, Mapper.storeFields]
      apply onDraft_bind (storeField_eq field _ draft scopes position)
      intro _ middle _
      exact storeFields_eq rest values.tail middle scopes (position + 1)

end

/-- **The public call with a stack.** It does what the call without one does, and its stack is empty
again, whether it succeeds or fails. -/
theorem fillField_eq (mapper : Mapper) (knownKey : Reference → Option Key) (position : Nat)
    (value : FieldValue) (draft : Draft) :
    fillField mapper knownKey position value ⟨draft, []⟩ =
      onDraft (mapper.fillField knownKey position value) ⟨draft, []⟩ := by
  have outside : (⟨draft, []⟩ : Descent).currentClass = draft.schema := rfl
  rw [fillField, get_bind, outside]
  cases found : draft.schema.field position with
  | error error =>
      exact (onDraft_congr (Mapper.fillField_of_absent mapper knownKey value found)).symm
  | ok field =>
      have read : (liftM (Except.ok field : Outcome Field) : Attempt Descent Field) ⟨draft, []⟩ =
          .ok field ⟨draft, []⟩ := rfl
      rw [bind_of_ok read]
      cases inKey : field.isInKey with
      | true =>
          exact (onDraft_congr (Mapper.fillField_of_inKey mapper knownKey value found inKey)).symm
      | false =>
          rw [onDraft_congr (Mapper.fillField_of_not_inKey mapper knownKey value found inKey)]
          exact storeField_eq field value draft [] position

/-- Within an embedded object the public call stores the field at a position of its class, so that
the loop over its fields is a loop of such calls. -/
theorem fillField_within {field : Field} (found : scope.schema.field position = .ok field)
    (value : FieldValue) :
    fillField mapper knownKey position value ⟨draft, scope :: scopes⟩ =
      storeField mapper knownKey position field value ⟨draft, scope :: scopes⟩ := by
  have here : (⟨draft, scope :: scopes⟩ : Descent).currentClass.field position = .ok field := found
  rw [fillField, get_bind]
  simp only [here]
  rfl

end Descent

end RecordMapping

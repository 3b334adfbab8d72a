import EntityStore.Store.Writing

/-!
Operations as data.

An `Operation` is a call on a store with its arguments, and `Session.step` carries
it out: the answer or error, the store after it, and the sequence of fresh ids
after it.  `Session.run` is the state after a list of operations, so the states
of `Session.run` from `Session.start` are all that can be reached, and
`Session.answers` are the answers given on the way.
-/

namespace EntityStore

/-- A call on a store. -/
inductive Operation where
  | register (m : Metadata)
  | destroy
  | count (m : Metadata) (condition : Option Condition)
  | hasMatch (m : Metadata) (condition : Condition)
  | findAll (m : Metadata) (condition : Option Condition) (sorting : Option Sorting)
  | findBy (m : Metadata) (condition : Condition) (sorting : Option Sorting)
  | insert (m : Metadata) (e : Entity)
  | insertAll (m : Metadata) (entities : List Entity)
  | update (m : Metadata) (e : Entity)
  | delete (m : Metadata) (condition : Option Condition)

/-- The description by which a call reads or writes a table; registering a
description does neither. -/
def Operation.metadata? : Operation → Option Metadata
  | .register _ => none
  | .destroy => none
  | .count m _ => some m
  | .hasMatch m _ => some m
  | .findAll m _ _ => some m
  | .findBy m _ _ => some m
  | .insert m _ => some m
  | .insertAll m _ => some m
  | .update m _ => some m
  | .delete m _ => some m

/-- Whether a call may draw fresh ids. -/
def Operation.drawsIds : Operation → Bool
  | .insert .. => true
  | .insertAll .. => true
  | _ => false

/-- What a call answers. -/
inductive Answer where
  | done
  | number (n : Nat)
  | truth (b : Bool)
  | entity (e : Entity)
  | optionalEntity (e : Option Entity)
  | entities (es : List Entity)
  deriving DecidableEq

namespace Answer

/-- The entities that an answer hands out. -/
def handedOut : Answer → List Entity
  | .entity e => [e]
  | .optionalEntity e => e.toList
  | .entities es => es
  | _ => []

end Answer

/-- A store and the sequence that it draws fresh ids from. -/
structure Session where
  store : Store
  ids : IdSequence
  deriving DecidableEq

namespace Session

/-- A new store with a sequence of fresh ids. -/
def start (idForm : IdForm) (ids : IdSequence) : Session := ⟨.new idForm, ids⟩

/-- Carries out a call. -/
def step (c : Session) : Operation → Except Error Answer × Session
  | .register m => (.ok .done, { c with store := c.store.register m })
  | .destroy => (.ok .done, { c with store := c.store.destroy })
  | .count m condition =>
      match c.store.count m condition with
      | (n, store) => (.ok (.number n), { c with store := store })
  | .hasMatch m condition =>
      match c.store.hasMatch m condition with
      | (found, store) => (.ok (.truth found), { c with store := store })
  | .findAll m condition sorting =>
      match c.store.findAll m condition sorting with
      | (result, store) => (result.map .entities, { c with store := store })
  | .findBy m condition sorting =>
      match c.store.findBy m condition sorting with
      | (result, store) => (result.map .optionalEntity, { c with store := store })
  | .insert m e =>
      match c.store.insert m e c.ids with
      | (result, store, ids) => (result.map .entity, ⟨store, ids⟩)
  | .insertAll m entities =>
      match c.store.insertAll m entities c.ids with
      | (result, store, ids) => (result.map .entities, ⟨store, ids⟩)
  | .update m e =>
      match c.store.update m e with
      | (result, store) => (result.map .entity, { c with store := store })
  | .delete m condition => (.ok .done, { c with store := c.store.delete m condition })

/-- Carries out calls one after the other, whether they succeed or not. -/
def run (c : Session) (operations : List Operation) : Session :=
  operations.foldl (fun c operation => (c.step operation).2) c

/-- What each call of a run keeps, the run keeps. -/
theorem run_invariant (holds : Session → Prop) {operations : List Operation}
    (keeps : ∀ c, holds c → ∀ operation ∈ operations, holds (c.step operation).2) {c : Session}
    (first : holds c) : holds (c.run operations) := by
  induction operations generalizing c with
  | nil => exact first
  | cons operation operations ih =>
      exact ih (fun c now later member => keeps c now later (List.mem_cons_of_mem _ member))
        (keeps c first operation List.mem_cons_self)

/-- What calls carried out one after the other answer. -/
def answers (c : Session) : List Operation → List (Except Error Answer)
  | [] => []
  | operation :: operations =>
      (c.step operation).1 :: answers (c.step operation).2 operations

end Session

end EntityStore

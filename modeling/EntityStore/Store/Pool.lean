import EntityStore.Store.Operation

/-!
Several stores that share sequences of fresh ids.

A `Pool` holds stores and sequences; each store draws from the sequence whose
place in the list it names.  A call goes to one store and moves only that store
and its sequence.
-/

namespace EntityStore

/-- A store and the place of the sequence that it draws from. -/
structure PoolMember where
  store : Store
  source : Nat
  deriving DecidableEq

/-- Stores with their sequences of fresh ids. -/
structure Pool where
  sequences : List IdSequence
  members : List PoolMember
  deriving DecidableEq

namespace Pool

/-- The sequence at a place; one that is not there starts with 1. -/
def sequence (p : Pool) (source : Nat) : IdSequence := p.sequences[source]?.getD .start

/-- Carries out a call on the store at a place, if there is one. -/
def step (p : Pool) (place : Nat) (operation : Operation) :
    Option (Except Error Answer) × Pool :=
  match p.members[place]? with
  | none => (none, p)
  | some member =>
      match Session.step ⟨member.store, p.sequence member.source⟩ operation with
      | (result, session) =>
          (some result,
            { sequences := p.sequences.set member.source session.ids
              members := p.members.set place { member with store := session.store } })

/-- Carries out calls one after the other, each on the store at its place. -/
def run (p : Pool) (calls : List (Nat × Operation)) : Pool :=
  calls.foldl (fun p call => (p.step call.1 call.2).2) p

end Pool

end EntityStore

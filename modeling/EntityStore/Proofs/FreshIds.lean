import EntityStore.Proofs.Faults
import EntityStore.Proofs.StoredIds
import EntityStore.Store.Pool

/-!
Fresh ids are fresh.

Several stores draw numbers from one sequence, and each gives a number the form of an id that its
table and it ask for.  Until the sequence is exhausted a number is drawn once, and two forms of
different numbers are different (`Value.StandsFor.unique`), so no id is generated twice.  If callers
pass on only ids of numbers drawn before, then the sequence has reached the number of every id that
is stored anywhere (`Pool.Reached`), whatever fails, is deleted or is stored again on the way; so a
number to be drawn yields an id that no store holds (`Pool.generated_ids_are_fresh`).
-/

namespace EntityStore

/-! ## Ids that stand for numbers -/

/-- The id is a number, as an integer or as its text. -/
def Value.StandsFor (id : Value) (n : UInt64) : Prop :=
  id = .text (toString n) ∨ id.asInteger?.map Int64.toInt = some (n.toNat : Int)

instance (id : Value) (n : UInt64) : Decidable (id.StandsFor n) :=
  inferInstanceAs (Decidable (_ ∨ _))

theorem Value.StandsFor.unique {id : Value} {n n' : UInt64} (one : id.StandsFor n)
    (other : id.StandsFor n') : n = n' := by
  apply UInt64.toNat_inj.mp
  rcases one with rfl | one
  · rcases other with same | other
    · exact toString_number_injective (Value.text.inj same)
    · cases other
  · rcases other with rfl | other
    · cases one
    · rw [one] at other
      exact Int.ofNat.inj (Option.some.inj other)

/-- What is generated for a number stands for it. -/
theorem Metadata.standsFor_freshId {m : Metadata} {form : IdForm} {n : UInt64} {id : Value}
    (fresh : m.freshId form n = .ok id) : id.StandsFor n := by
  rcases freshId_of_ok fresh with ⟨rfl, value⟩ | rfl
  · exact .inr (congrArg some value)
  · exact .inl rfl

namespace IdSequence

variable {ids ids' : IdSequence} {id : Value} {n : UInt64}

/-- Until the numbers start again, they are handed out in ascending order. -/
theorem pairwise_drawnSince (unexhausted : ids'.Unexhausted) :
    (ids'.drawnSince ids).Pairwise fun n n' => n.toNat < n'.toNat := by
  have word : ∀ k ∈ List.range' (ids.count + 1) (ids'.count - ids.count),
      (UInt64.ofNat k).toNat = k := by
    intro k counted
    rw [List.mem_range'_1] at counted
    have bound : k ≤ ids'.count := by omega
    exact UInt64.toNat_ofNat_of_lt' (Nat.lt_of_le_of_lt bound unexhausted)
  refine List.pairwise_map.mpr (List.Pairwise.imp_of_mem ?_ List.pairwise_lt_range')
  intro k k' one other less
  rwa [word k one, word k' other]

/-- The id stands for a number up to the last that was handed out. -/
def Reaches (ids : IdSequence) (id : Value) : Prop :=
  ∃ n : UInt64, n.toNat ≤ ids.count ∧ id.StandsFor n

theorem Reaches.mono (reached : ids.Reaches id) (later : ids.count ≤ ids'.count) :
    ids'.Reaches id := by
  obtain ⟨n, bound, stands⟩ := reached
  exact ⟨n, Nat.le_trans bound later, stands⟩

/-- A number that is still to be drawn is not reached. -/
theorem not_reaches_of_lt (stands : id.StandsFor n) (later : ids.count < n.toNat) :
    ¬ids.Reaches id := by
  rintro ⟨n', bound, stands'⟩
  rw [← stands.unique stands'] at bound
  omega

end IdSequence

/-! ## New rows -/

namespace Metadata

variable {m : Metadata} {form : IdForm} {entities : List Entity} {taken : List Value}
  {ids ids' : IdSequence}

/-- Where the sequence has reached the ids that are taken and those that entities have, an id that
is found to be taken is one that an entity has. -/
theorem passed_of_duplicateId {table : String} {id : Value}
    (reached : ∀ id ∈ taken, ids.Reaches id)
    (passed : ∀ e ∈ entities, ∀ id, m.idOf? e = some id → ids.Reaches id)
    (failed : m.newRows form taken entities ids = (.error (.duplicateId table id), ids'))
    (unexhausted : ids'.Unexhausted) : ∃ e ∈ entities, m.idOf? e = some id := by
  induction entities generalizing taken ids with
  | nil => cases failed
  | cons e rest ih =>
      rcases newRows_cons_of_error failed with ⟨mismatch, -⟩ | unmade | ⟨row, ids₁, made, refused⟩
      · cases mismatch
      · obtain ⟨formless, -⟩ := newRow_of_error unmade
        unfold freshId at formless
        split at formless
        · split at formless
          · cases formless
          · cases formless
        · cases formless
      · have drawn := count_le_of_newRow made
        rcases refused with ⟨same, repeated, rfl⟩ | failedRest
        · cases same
          rcases newRow_of_ok made with ⟨identified, -⟩ | ⟨fresh, rfl⟩
          · exact ⟨e, List.mem_cons_self, identified⟩
          -- The next number has not been reached, so its id is not among those taken.
          · have later : ids.count < ids.next.toNat := by
              rw [IdSequence.toNat_next unexhausted]
              exact Nat.lt_succ_self ids.count
            have unreached := IdSequence.not_reaches_of_lt (standsFor_freshId fresh) later
            exact (unreached (reached _ repeated)).elim
        · have rowReached : ids₁.Reaches row.id := by
            rcases newRow_of_ok made with ⟨identified, -⟩ | ⟨fresh, rfl⟩
            · exact (passed e List.mem_cons_self _ identified).mono drawn
            · have sooner := unexhausted.of_count_le (count_le_of_newRows failedRest)
              exact ⟨ids.next, Nat.le_of_eq (IdSequence.toNat_next sooner),
                standsFor_freshId fresh⟩
          have takenReached : ∀ id ∈ row.id :: taken, ids₁.Reaches id := by
            intro id member
            rcases List.mem_cons.mp member with rfl | old
            · exact rowReached
            · exact (reached id old).mono drawn
          have passedRest : ∀ e' ∈ rest, ∀ id, m.idOf? e' = some id → ids₁.Reaches id :=
            fun e' member id identified =>
              (passed e' (List.mem_cons_of_mem _ member) id identified).mono drawn
          obtain ⟨e', memberRest, identified⟩ := ih takenReached passedRest failedRest
          exact ⟨e', List.mem_cons_of_mem _ memberRest, identified⟩

end Metadata

/-! ## Calls -/

namespace Store

variable {s : Store} {m : Metadata} {entities : List Entity} {ids : IdSequence}

/-- A batch is refused for an id that is taken only if one of its entities has the id, provided that
the sequence has reached every id there is. -/
theorem passed_of_insertAll_duplicateId {table : String} {id : Value}
    (reached : ∀ id ∈ s.tables.ids m.table, ids.Reaches id)
    (passed : ∀ e ∈ entities, ∀ id, m.idOf? e = some id → ids.Reaches id)
    (failed : (s.insertAll m entities ids).1 = .error (.duplicateId table id))
    (unexhausted : (s.insertAll m entities ids).2.2.Unexhausted) :
    ∃ e ∈ entities, m.idOf? e = some id := by
  rw [insertAll_ids] at unexhausted
  unfold insertAll at failed
  split at failed
  · rename_i refused
    rw [refused] at unexhausted
    cases failed
    exact Metadata.passed_of_duplicateId reached passed refused unexhausted
  · split at failed
    · rename_i unpopulated
      cases failed
      simp only [handOutAdded, populateAll] at unpopulated
      split at unpopulated
      · rename_i fault
        cases unpopulated
        cases Metadata.concernsRelations_of_populateAll fault
      · cases unpopulated
    · cases failed

theorem insertAll_eq_error_of_insert {e : Entity} {error : Error}
    (failed : (s.insert m e ids).1 = .error error) :
    (s.insertAll m [e] ids).1 = .error error := by
  have nonempty := @insertAll_singleton_ne_nil s m e ids
  unfold insert at failed
  generalize s.insertAll m [e] ids = outcome at failed nonempty ⊢
  obtain ⟨result, after, ids'⟩ := outcome
  match result with
  | .error error =>
      cases failed
      rfl
  | .ok [] => exact (nonempty rfl).elim
  | .ok (added :: others) => cases failed

end Store

/-- The sequence has reached every id that the store holds. -/
def Store.ReachedBy (s : Store) (ids : IdSequence) : Prop :=
  ∀ table, ∀ id ∈ s.tables.ids table, ids.Reaches id

namespace Session

variable {c : Session} {operation : Operation}

/-- What is generated stands for a number drawn. -/
theorem drawn_of_mem_generatedIds (unexhausted : (c.step operation).2.ids.Unexhausted) {id : Value}
    (generated : id ∈ c.generatedIds operation) :
    ∃ n : UInt64, c.ids.count < n.toNat ∧ n.toNat ≤ (c.step operation).2.ids.count ∧
      id.StandsFor n := by
  obtain ⟨m, -, n, drawn, fresh⟩ := mem_generatedIds.mp generated
  obtain ⟨after, bound⟩ := IdSequence.bounds_of_mem_drawnSince unexhausted drawn
  exact ⟨n, after, bound, Metadata.standsFor_freshId fresh⟩

/-- No call generates an id twice. -/
theorem nodup_generatedIds (unexhausted : (c.step operation).2.ids.Unexhausted) :
    (c.generatedIds operation).Nodup := by
  unfold generatedIds
  split
  · exact List.nodup_nil
  · refine List.pairwise_filterMap.mpr
      ((IdSequence.pairwise_drawnSince unexhausted).imp fun less => ?_)
    rintro id given id' given' rfl
    have stands := Metadata.standsFor_freshId (toOption_eq_some_iff.mp given)
    have stands' := Metadata.standsFor_freshId (toOption_eq_some_iff.mp given')
    exact Nat.ne_of_lt less (congrArg UInt64.toNat (stands.unique stands'))

/-- Where the sequence has reached the ids stored and those passed, a call does not fail for an id
that it has generated being taken. -/
theorem step_ne_duplicateId (reached : c.store.ReachedBy c.ids)
    (unexhausted : (c.step operation).2.ids.Unexhausted)
    (passed : ∀ id ∈ operation.passedIds, c.ids.Reaches id) {id : Value}
    (generated : id ∈ c.generatedIds operation) (table : String) :
    (c.step operation).1 ≠ .error (.duplicateId table id) := by
  intro failed
  obtain ⟨n, after, bound, stands⟩ := drawn_of_mem_generatedIds unexhausted generated
  have unpassed : id ∉ operation.passedIds :=
    fun given => IdSequence.not_reaches_of_lt stands after (passed id given)
  cases draws : operation.drawsIds with
  | false =>
      rw [ids_step_of_drawsNone draws] at bound
      omega
  | true =>
      cases operation with
      | insert m e =>
          have given : ∀ e' ∈ [e], ∀ id, m.idOf? e' = some id → c.ids.Reaches id := by
            intro e' member id identified
            rw [List.mem_singleton.mp member] at identified
            exact passed id (Option.mem_toList.mpr identified)
          have refused : (c.store.insert m e c.ids).1 = .error (.duplicateId table id) :=
            eq_error_of_map failed
          have later : (c.store.insert m e c.ids).2.2.Unexhausted := unexhausted
          rw [Store.insert_snd] at later
          obtain ⟨e', member, identified⟩ := Store.passed_of_insertAll_duplicateId
            (reached m.table) given (Store.insertAll_eq_error_of_insert refused) later
          rw [List.mem_singleton.mp member] at identified
          exact unpassed (Option.mem_toList.mpr identified)
      | insertAll m entities =>
          have given : ∀ e ∈ entities, ∀ id, m.idOf? e = some id → c.ids.Reaches id :=
            fun e member id identified =>
              passed id (List.mem_filterMap.mpr ⟨e, member, identified⟩)
          have refused : (c.store.insertAll m entities c.ids).1 = .error (.duplicateId table id) :=
            eq_error_of_map failed
          obtain ⟨e, member, identified⟩ := Store.passed_of_insertAll_duplicateId
            (reached m.table) given refused unexhausted
          exact unpassed (List.mem_filterMap.mpr ⟨e, member, identified⟩)
      | _ => cases draws

end Session

/-! ## Pools -/

namespace Pool

/-- New stores, with their forms of fresh ids, that draw from one sequence. -/
def sharing (ids : IdSequence) (forms : List IdForm) : Pool where
  sequences := [ids]
  members := forms.map fun form => ⟨.new form, 0⟩

/-- The ids that a call on the store at a place generates. -/
def generatedIds (p : Pool) (place : Nat) (operation : Operation) : List Value :=
  match p.members[place]? with
  | none => []
  | some member => Session.generatedIds ⟨member.store, p.sequence member.source⟩ operation

/-- The ids that calls carried out one after the other generate. -/
def generatedInRun (p : Pool) : List (Nat × Operation) → List Value
  | [] => []
  | (place, operation) :: calls =>
      p.generatedIds place operation ++ (p.step place operation).2.generatedInRun calls

/-- There is one sequence, and every store draws from it. -/
structure Shares (p : Pool) : Prop where
  one : p.sequences.length = 1
  sources : ∀ member ∈ p.members, member.source = 0

/-- The one sequence has reached every id that any of the stores holds. -/
structure Reached (p : Pool) : Prop extends p.Shares where
  stored : ∀ member ∈ p.members, member.store.ReachedBy (p.sequence 0)

variable {p : Pool} {place : Nat} {operation : Operation}

theorem sharing_reached (ids : IdSequence) (forms : List IdForm) : (sharing ids forms).Reached := by
  refine ⟨⟨rfl, fun member given => ?_⟩, fun member given => ?_⟩
  · obtain ⟨form, -, rfl⟩ := List.mem_map.mp given
    rfl
  · obtain ⟨form, -, rfl⟩ := List.mem_map.mp given
    exact fun table id stored => (List.not_mem_nil stored).elim

/-- A call on a store that is there is carried out on it, and moves the one sequence. -/
theorem step_of_member (shares : p.Shares) {member : PoolMember}
    (found : p.members[place]? = some member) (operation : Operation) :
    let session : Session := ⟨member.store, p.sequence 0⟩
    let after := (p.step place operation).2
    (p.step place operation).1 = some (session.step operation).1 ∧
      p.generatedIds place operation = session.generatedIds operation ∧
      after.sequence 0 = (session.step operation).2.ids ∧
      after.sequences.length = 1 ∧
      after.members =
        p.members.set place { member with store := (session.step operation).2.store } := by
  have source := shares.sources member (List.mem_of_getElem? found)
  intro session after
  simp only [after, session, step, generatedIds, found, source, sequence, List.length_set,
    shares.one, true_and, and_true]
  rw [List.getElem?_set_self (by rw [shares.one]; exact Nat.one_pos)]
  rfl

/-- A call on a store that is not there does nothing. -/
theorem step_of_no_member (absent : p.members[place]? = none) :
    p.step place operation = (none, p) ∧ p.generatedIds place operation = [] := by
  simp only [step, generatedIds, absent, and_self]

theorem step_shares (shares : p.Shares) (place : Nat) (operation : Operation) :
    (p.step place operation).2.Shares := by
  cases found : p.members[place]? with
  | none =>
      rw [(step_of_no_member found).1]
      exact shares
  | some member =>
      obtain ⟨-, -, -, one, members⟩ := step_of_member shares found operation
      refine ⟨one, fun other given => ?_⟩
      rw [members] at given
      rcases List.mem_or_eq_of_mem_set given with old | rfl
      · exact shares.sources other old
      · exact shares.sources member (List.mem_of_getElem? found)

theorem count_le_step (shares : p.Shares) (place : Nat) (operation : Operation) :
    (p.sequence 0).count ≤ ((p.step place operation).2.sequence 0).count := by
  cases found : p.members[place]? with
  | none =>
      have kept : (p.step place operation).2.sequence 0 = p.sequence 0 := by
        rw [(step_of_no_member found).1]
      exact Nat.le_of_eq (congrArg IdSequence.count kept.symm)
  | some member =>
      obtain ⟨-, -, drawn, -, -⟩ := step_of_member shares found operation
      rw [drawn]
      exact Session.count_le_step ⟨member.store, p.sequence 0⟩ operation

theorem count_le_run (shares : p.Shares) (calls : List (Nat × Operation)) :
    (p.sequence 0).count ≤ ((p.run calls).sequence 0).count := by
  induction calls generalizing p with
  | nil => exact Nat.le_refl _
  | cons call calls ih =>
      have first := count_le_step shares call.1 call.2
      exact Nat.le_trans first (ih (step_shares shares call.1 call.2))

theorem drawn_of_mem_generatedIds (shares : p.Shares)
    (unexhausted : ((p.step place operation).2.sequence 0).Unexhausted) {id : Value}
    (generated : id ∈ p.generatedIds place operation) :
    ∃ n : UInt64, (p.sequence 0).count < n.toNat ∧
      n.toNat ≤ ((p.step place operation).2.sequence 0).count ∧ id.StandsFor n := by
  cases found : p.members[place]? with
  | none =>
      rw [(step_of_no_member found).2] at generated
      cases generated
  | some member =>
      obtain ⟨-, same, drawn, -, -⟩ := step_of_member shares found operation
      rw [same] at generated
      rw [drawn] at unexhausted ⊢
      exact Session.drawn_of_mem_generatedIds unexhausted generated

theorem nodup_generatedIds (shares : p.Shares)
    (unexhausted : ((p.step place operation).2.sequence 0).Unexhausted) :
    (p.generatedIds place operation).Nodup := by
  cases found : p.members[place]? with
  | none =>
      rw [(step_of_no_member found).2]
      exact List.nodup_nil
  | some member =>
      obtain ⟨-, same, drawn, -, -⟩ := step_of_member shares found operation
      rw [drawn] at unexhausted
      rw [same]
      exact Session.nodup_generatedIds unexhausted

/-- Whatever is generated in a run stands for a number that was not drawn before it. -/
theorem drawn_of_mem_generatedInRun {calls : List (Nat × Operation)} (shares : p.Shares)
    (unexhausted : ((p.run calls).sequence 0).Unexhausted) {id : Value}
    (generated : id ∈ p.generatedInRun calls) :
    ∃ n : UInt64, (p.sequence 0).count < n.toNat ∧ id.StandsFor n := by
  induction calls generalizing p with
  | nil => cases generated
  | cons call calls ih =>
      have next := step_shares shares call.1 call.2
      rcases List.mem_append.mp generated with first | later
      · have sooner := unexhausted.of_count_le (count_le_run next calls)
        obtain ⟨n, after, -, stands⟩ := drawn_of_mem_generatedIds shares sooner first
        exact ⟨n, after, stands⟩
      · obtain ⟨n, after, stands⟩ := ih next unexhausted later
        exact ⟨n, Nat.lt_of_le_of_lt (count_le_step shares call.1 call.2) after, stands⟩

/-- No id is generated twice in a run that does not exhaust the sequence. -/
theorem nodup_generatedInRun (shares : p.Shares) {calls : List (Nat × Operation)}
    (unexhausted : ((p.run calls).sequence 0).Unexhausted) : (p.generatedInRun calls).Nodup := by
  induction calls generalizing p with
  | nil => exact List.nodup_nil
  | cons call calls ih =>
      have next := step_shares shares call.1 call.2
      have sooner := unexhausted.of_count_le (count_le_run next calls)
      refine List.nodup_append.mpr
        ⟨nodup_generatedIds shares sooner, ih next unexhausted, ?_⟩
      rintro id first id' later rfl
      obtain ⟨n, -, bound, stands⟩ := drawn_of_mem_generatedIds shares sooner first
      obtain ⟨n', after, stands'⟩ := drawn_of_mem_generatedInRun next unexhausted later
      cases stands.unique stands'
      omega

/-- After a call the ids stored are those stored before it, those that it was passed, and those that
it has generated. -/
theorem mem_ids_step (shares : p.Shares) {member : PoolMember}
    (given : member ∈ (p.step place operation).2.members) {table : String} {id : Value}
    (stored : id ∈ member.store.tables.ids table) :
    (∃ before ∈ p.members, id ∈ before.store.tables.ids table) ∨ id ∈ operation.passedIds ∨
      id ∈ p.generatedIds place operation := by
  cases found : p.members[place]? with
  | none =>
      rw [(step_of_no_member found).1] at given
      exact .inl ⟨member, given, stored⟩
  | some called =>
      obtain ⟨-, same, -, -, members⟩ := step_of_member shares found operation
      rw [members] at given
      rcases List.mem_or_eq_of_mem_set given with old | rfl
      · exact .inl ⟨member, old, stored⟩
      · rw [same]
        exact (Session.mem_ids_step stored).imp_left
          fun old => ⟨called, List.mem_of_getElem? found, old⟩

/-- Where callers pass on only ids that the sequence has reached, it goes on to reach every id that
is stored. -/
theorem step_reached (reached : p.Reached)
    (unexhausted : ((p.step place operation).2.sequence 0).Unexhausted)
    (passed : ∀ id ∈ operation.passedIds, (p.sequence 0).Reaches id) :
    (p.step place operation).2.Reached := by
  have later := count_le_step reached.toShares place operation
  refine ⟨step_shares reached.toShares place operation, fun member given table id stored => ?_⟩
  rcases mem_ids_step reached.toShares given stored with ⟨before, was, old⟩ | passedOn | generated
  · exact (reached.stored before was table id old).mono later
  · exact (passed id passedOn).mono later
  · obtain ⟨n, -, bound, stands⟩ :=
      drawn_of_mem_generatedIds reached.toShares unexhausted generated
    exact ⟨n, bound, stands⟩

/-- What a call generates is stored nowhere, and the call does not fail for it being taken. -/
theorem fresh_of_mem_generatedIds (reached : p.Reached)
    (unexhausted : ((p.step place operation).2.sequence 0).Unexhausted)
    (passed : ∀ id ∈ operation.passedIds, (p.sequence 0).Reaches id) {id : Value}
    (generated : id ∈ p.generatedIds place operation) :
    (∀ member ∈ p.members, ∀ table, id ∉ member.store.tables.ids table) ∧
      ∀ table, (p.step place operation).1 ≠ some (.error (.duplicateId table id)) := by
  constructor
  · obtain ⟨n, after, -, stands⟩ :=
      drawn_of_mem_generatedIds reached.toShares unexhausted generated
    intro member given table stored
    exact IdSequence.not_reaches_of_lt stands after (reached.stored member given table id stored)
  · cases found : p.members[place]? with
    | none =>
        rw [(step_of_no_member found).2] at generated
        cases generated
    | some member =>
        obtain ⟨answer, same, drawn, -⟩ := step_of_member reached.toShares found operation
        rw [same] at generated
        rw [drawn] at unexhausted
        rw [answer]
        intro table failed
        exact Session.step_ne_duplicateId
          (reached.stored member (List.mem_of_getElem? found)) unexhausted passed generated table
          (Option.some.inj failed)

theorem run_shares (shares : p.Shares) (calls : List (Nat × Operation)) : (p.run calls).Shares := by
  induction calls generalizing p with
  | nil => exact shares
  | cons call calls ih => exact ih (step_shares shares call.1 call.2)

/-- A sequence that a run does not exhaust is not exhausted in any part of it. -/
theorem unexhausted_take (shares : p.Shares) {calls : List (Nat × Operation)}
    (unexhausted : ((p.run calls).sequence 0).Unexhausted) (i : Nat) :
    ((p.run (calls.take i)).sequence 0).Unexhausted := by
  have rest : p.run calls = (p.run (calls.take i)).run (calls.drop i) := by
    unfold run
    rw [← List.foldl_append, List.take_append_drop]
  rw [rest] at unexhausted
  exact unexhausted.of_count_le (count_le_run (run_shares shares _) _)

theorem run_take_succ (p : Pool) {calls : List (Nat × Operation)} {i : Nat}
    (inRange : i < calls.length) :
    p.run (calls.take (i + 1)) = ((p.run (calls.take i)).step calls[i].1 calls[i].2).2 := by
  unfold run
  rw [List.take_succ_eq_append_getElem inRange, List.foldl_append]
  rfl

/-- Stores draw from one sequence, which the run does not exhaust, and of the ids that callers pass
to them each stands, as text or as an integer, for a number that the sequence has handed out earlier
in the run.  Then no id is generated twice in the run; none is stored in any table of any of the
stores when it is generated; and no call fails for an id that it has generated being taken.
Whatever a call stores under a new id, the id was passed to it or generated by it. -/
theorem generated_ids_are_fresh (ids : IdSequence) (forms : List IdForm)
    (calls : List (Nat × Operation))
    (unexhausted : (((sharing ids forms).run calls).sequence 0).Unexhausted)
    (handedOut : ∀ i, (inRange : i < calls.length) → ∀ id ∈ calls[i].2.passedIds,
      ∃ n ∈ (((sharing ids forms).run (calls.take i)).sequence 0).drawnSince ids,
        id.StandsFor n) :
    ((sharing ids forms).generatedInRun calls).Nodup ∧
      ∀ i, (inRange : i < calls.length) →
        let pool := (sharing ids forms).run (calls.take i)
        let outcome := pool.step calls[i].1 calls[i].2
        let generated := pool.generatedIds calls[i].1 calls[i].2
        (∀ id ∈ generated,
          (∀ member ∈ pool.members, ∀ table, id ∉ member.store.tables.ids table) ∧
            ∀ table, outcome.1 ≠ some (.error (.duplicateId table id))) ∧
          ∀ member ∈ outcome.2.members, ∀ table, ∀ id ∈ member.store.tables.ids table,
            (∃ before ∈ pool.members, id ∈ before.store.tables.ids table) ∨
              id ∈ calls[i].2.passedIds ∨ id ∈ generated := by
  have shares : (sharing ids forms).Shares := (sharing_reached ids forms).toShares
  have unexhaustedStep : ∀ i, (inRange : i < calls.length) →
      ((((sharing ids forms).run (calls.take i)).step calls[i].1 calls[i].2).2.sequence
        0).Unexhausted := by
    intro i inRange
    rw [← run_take_succ _ inRange]
    exact unexhausted_take shares unexhausted (i + 1)
  have passed : ∀ i, (inRange : i < calls.length) → ∀ id ∈ calls[i].2.passedIds,
      (((sharing ids forms).run (calls.take i)).sequence 0).Reaches id := by
    intro i inRange id given
    obtain ⟨n, drawn, stands⟩ := handedOut i inRange id given
    have sooner := unexhausted_take shares unexhausted i
    exact ⟨n, (IdSequence.bounds_of_mem_drawnSince sooner drawn).2, stands⟩
  have reached : ∀ i, i ≤ calls.length → ((sharing ids forms).run (calls.take i)).Reached := by
    intro i
    induction i with
    | zero => exact fun _ => sharing_reached ids forms
    | succ i ih =>
        intro inRange
        rw [run_take_succ _ inRange]
        exact step_reached (ih (Nat.le_of_lt inRange)) (unexhaustedStep i inRange)
          (passed i inRange)
  refine ⟨nodup_generatedInRun shares unexhausted, ?_⟩
  intro i inRange pool outcome generated
  have now : pool.Reached := reached i (Nat.le_of_lt inRange)
  exact ⟨fun id => fresh_of_mem_generatedIds now (unexhaustedStep i inRange) (passed i inRange),
    fun member given table id => mem_ids_step now.toShares given⟩

/-- Two stores, one with ids as text and one with integers.  The second fails to insert a cart, for
no table is registered; it takes up the id of a contact that the first has deleted; and the first
stores the number of the failed cart as an id of its own. -/
theorem generated_ids_are_fresh_samples :
    let calls : List (Nat × Operation) :=
      [(0, .insert Samples.contacts (Samples.contact "ada@example.org")),
        (0, .delete Samples.contacts none),
        (1, .insert Samples.carts (Samples.cart "u1" "groceries" 20)),
        (1, .insert Samples.contacts ((Samples.contact "bo@example.org").set "id" "42")),
        (0, .update Samples.contacts ((Samples.contact "cy@example.org").set "id" (43 : Int64))),
        (1, .insertAll Samples.contacts
          [(Samples.contact "di@example.org").set "id" "43", Samples.contact "ed@example.org"])]
    let shared := sharing (.startingAfter 41) [.text, .number]
    let pool := shared.run (calls.take 5)
    ((shared.run calls).sequence 0).Unexhausted ∧
    (∀ i, (inRange : i < calls.length) → ∀ id ∈ calls[i].2.passedIds,
        ∃ n ∈ ((shared.run (calls.take i)).sequence 0).drawnSince (.startingAfter 41),
          id.StandsFor n) ∧
      shared.generatedInRun calls = [.text "42", .integer 43, .text "44"] ∧
      (shared.generatedInRun calls).Nodup ∧
      pool.members.map (fun member => member.store.tables.ids "contacts") =
        [[.integer 43], [.text "42"]] ∧
      ∀ member ∈ pool.members, .text "44" ∉ member.store.tables.ids "contacts" := by
  intro calls shared pool
  have handedOut : ∀ i, (inRange : i < calls.length) → ∀ id ∈ calls[i].2.passedIds,
      ∃ n ∈ ((shared.run (calls.take i)).sequence 0).drawnSince (.startingAfter 41),
        id.StandsFor n := by decide +kernel
  have generated : shared.generatedInRun calls = [.text "42", .integer 43, .text "44"] := by
    decide +kernel
  have stored : pool.members.map (fun member => member.store.tables.ids "contacts") =
      [[.integer 43], [.text "42"]] := by decide +kernel
  have last : .text "44" ∈ pool.generatedIds calls[5].1 calls[5].2 := by decide +kernel
  have unexhausted : ((shared.run calls).sequence 0).Unexhausted := by decide +kernel
  obtain ⟨distinct, fresh⟩ := generated_ids_are_fresh (.startingAfter 41) [.text, .number] calls
    unexhausted handedOut
  exact ⟨unexhausted, handedOut, generated, distinct, stored,
    fun member given => ((fresh 5 (by decide)).1 (.text "44") last).1 member given "contacts"⟩

end Pool

end EntityStore

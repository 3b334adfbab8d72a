import EntityStore.Proofs.Sql.Bench
import EntityStore.Proofs.Sql.Recording

/-!
Replaying the log of a build.

Of a test the log keeps the name of the call, the table, the column and the operands,
and of an attached builder its text.  That is enough to make the same calls on chains:
`replay` does so on a bench where every builder stands under its text.  The chain
that ends up under the text of the root is the one that building the condition
directly gives (`replay_recordBuild`).
-/

namespace EntityStore.Sql

/-! ## Tests from recorded calls -/

/-- The test that a call asks for; there is none where no test of that name takes these
operands. -/
def SetterCall.columnTest? (call : SetterCall) : Option ColumnTest :=
  let test (predicate : Predicate) (asTime : Bool) : Option ColumnTest :=
    some ⟨call.table, call.column, predicate, asTime⟩
  match call.callName, call.predicate.operands with
  | "equals", [operand] => test (.equals operand) false
  | "equals_as_time", [operand] => test (.equals operand) true
  | "before", [limit] => test (.before limit) false
  | "before_as_time", [limit] => test (.before limit) true
  | "after", [limit] => test (.after limit) false
  | "after_as_time", [limit] => test (.after limit) true
  | "between", [first, last] => test (.between first last) false
  | "between_as_time", [first, last] => test (.between first last) true
  | "in_list", operands => test (.oneOf operands) false
  | "in_list_as_time", operands => test (.oneOf operands) true
  | "is_null", [] => test .isNull false
  | "is_not_null", [] => test .isNotNull false
  | _, _ => none

namespace ColumnTest

variable (t : ColumnTest)

/-- The test as the call for it says: whether it compares points in time, and not what it
was asked to compare as such. -/
def asCalled : ColumnTest := { t with asTime := t.comparesTime }

theorem columnTest?_setterCall : t.setterCall.columnTest? = some t.asCalled := by
  rcases t with ⟨table, column, predicate, _ | _⟩
  · cases predicate <;> rfl
  · cases predicate <;> rfl

theorem fragment_asCalled : t.asCalled.fragment = t.fragment := by
  rcases t with ⟨table, column, predicate, asTime⟩
  cases predicate <;>
    simp [asCalled, fragment, comparison, nullCheck, membership, marker, columnText, comparesTime,
      Predicate.isNullCheck]

end ColumnTest

/-! ## Replaying calls -/

/-- The call on the builders of a bench that a recorded call asks for; a builder stands under
its text there. -/
def Call.benchStep? : Call → Option BenchStep
  | .created builder =>
      match builder.role with
      | .root => none
      | .and => some (.chain (toString builder) .and)
      | .or => some (.chain (toString builder) .or)
  | .set builder call => call.columnTest?.map (.set (toString builder))
  | .attached builder source => some (.attach (toString builder) source)

namespace Bench

/-- Makes the recorded calls on the builders of a bench. -/
def replay (bench : Bench) : List Call → Option Bench
  | [] => some bench
  | call :: calls =>
      match call.benchStep? with
      | none => none
      | some step => (bench.step step).replay calls

/-- The bench on which only the root stands, without terms. -/
def ofRoot : Bench := empty.put (toString BuilderId.root) (.chain (.empty .and))

theorem replay_append (bench : Bench) (first second : List Call) :
    bench.replay (first ++ second) =
      (bench.replay first).bind fun bench => bench.replay second := by
  induction first generalizing bench with
  | nil => rfl
  | cons call calls ih =>
      rw [List.cons_append, replay, replay]
      split
      · rfl
      · exact ih _

variable {bench : Bench} {calls : List Call} {builder : BuilderId}

theorem replay_created (connective : Connective) (number : Nat) :
    bench.replay (.created ⟨connective.role, number⟩ :: calls) =
      (bench.put (toString (BuilderId.mk connective.role number))
        (.chain (.empty connective))).replay calls := by
  cases connective <;> rfl

theorem replay_set {c : Chain} (there : bench.builder? (toString builder) = some (.chain c))
    (test : ColumnTest) :
    bench.replay (.set builder test.setterCall :: calls) =
      (bench.put (toString builder) (.chain (c.add test))).replay calls := by
  have added : c.add test.asCalled = c.add test := by
    rw [Chain.add, Chain.add, ColumnTest.fragment_asCalled]
  rw [replay, Call.benchStep?, ColumnTest.columnTest?_setterCall]
  simp only [Option.map_some]
  rw [step, there]
  simp only [added]

theorem replay_attached {c : Chain} {source : Builder} {text : String}
    (there : bench.builder? (toString builder) = some (.chain c))
    (sourceThere : bench.builder? text = some source) :
    bench.replay (.attached builder text :: calls) =
      (bench.put (toString builder) (.chain (c.attach source.toFragment))).replay calls := by
  rw [replay, Call.benchStep?]
  simp only
  rw [step, there, sourceThere]

theorem builder?_put_other {builder' : Builder} {other : BuilderId} (different : other ≠ builder) :
    (bench.put (toString builder) builder').builder? (toString other) =
      bench.builder? (toString other) := by
  rw [builder?_put, if_neg]
  exact fun same => different (BuilderId.toString_injective same)

theorem builder?_put_same (bench : Bench) (name : String) (builder : Builder) :
    (bench.put name builder).builder? name = some builder := by
  rw [builder?_put, if_pos rfl]

end Bench

/-! ## An assembly of chains -/

/-- The terms that carrying an assembly out adds to a chain. -/
def Assembly.terms (scope : Scope) : Assembly → List Fragment
  | .done => []
  | .add test later => (scope.columnTest test).fragment :: later.terms scope
  | .attach connective own later =>
      (Chain.mk connective (own.terms scope)).fragment.grouped :: later.terms scope

theorem chains_carryOut {scope : Scope} {assembly : Assembly}
    (declared : ∀ test ∈ assembly.leaves, test.property ∈ scope.fields.map (·.property))
    (c : Chain) :
    chains.carryOut scope assembly c () =
      (.ok (), { c with terms := c.terms ++ assembly.terms scope }, ()) := by
  induction assembly generalizing c with
  | done => simp [Backend.carryOut, Assembly.terms]
  | add test later ih =>
      have resolved := Scope.resolve_eq_columnTest (declared test List.mem_cons_self)
      rw [Backend.carryOut_add resolved rfl,
        ih fun test member => declared test (List.mem_cons_of_mem _ member)]
      simp [Chain.add, Chain.push, Assembly.terms]
  | attach connective own later ihOwn ihLater =>
      have carriedOwn := ihOwn fun test member => declared test (List.mem_append_left _ member)
      rw [Backend.carryOut_attach rfl (carriedOwn _) rfl,
        ihLater fun test member => declared test (List.mem_append_right _ member)]
      simp [chains, Chain.empty, Chain.attach, Chain.push, Assembly.terms]

/-- Replaying the calls of an assembly adds its terms to the chain of the builder at hand and
leaves the builders made before alone. -/
theorem Assembly.replay_calls (scope : Scope) (assembly : Assembly) {next : Nat}
    {into : BuilderId} {bench : Bench} {c : Chain} (made : into.number < next)
    (there : bench.builder? (toString into) = some (.chain c)) :
    ∃ after, bench.replay (assembly.calls scope next into) = some after ∧
      after.builder? (toString into) =
        some (.chain { c with terms := c.terms ++ assembly.terms scope }) ∧
      ∀ other : BuilderId, other ≠ into → other.number < next →
        after.builder? (toString other) = bench.builder? (toString other) := by
  induction assembly generalizing next into bench c with
  | done =>
      refine ⟨bench, rfl, ?_, fun _ _ _ => rfl⟩
      simpa [terms] using there
  | add test later ih =>
      have added := bench.builder?_put_same (toString into)
        (.chain (c.add (scope.columnTest test)))
      obtain ⟨after, replayed, chain, others⟩ := ih made added
      refine ⟨after, ?_, ?_, ?_⟩
      · rw [calls, Bench.replay_set there]
        exact replayed
      · simpa [Chain.add, Chain.push, terms] using chain
      · intro other different earlier
        rw [others other different earlier, Bench.builder?_put_other different]
  | attach connective own later ihOwn ihLater =>
      have madeInner : (BuilderId.mk connective.role next).number < next + 1 :=
        Nat.lt_succ_self next
      have started := bench.builder?_put_same (toString (BuilderId.mk connective.role next))
        (.chain (.empty connective))
      obtain ⟨filled, replayedOwn, ownChain, ownOthers⟩ := ihOwn madeInner started
      have notInner {other : BuilderId} (earlier : other.number < next) :
          other ≠ ⟨connective.role, next⟩ := by
        rintro rfl
        exact Nat.lt_irrefl next earlier
      have intoThere : filled.builder? (toString into) = some (.chain c) := by
        rw [ownOthers into (notInner made) (by omega),
          Bench.builder?_put_other (notInner made), there]
      have attached := filled.builder?_put_same (toString into)
        (.chain (c.attach (Chain.mk connective (own.terms scope)).fragment))
      have madeLater : into.number < next + 1 + own.size := by omega
      obtain ⟨after, replayedLater, chain, others⟩ := ihLater madeLater attached
      refine ⟨after, ?_, ?_, ?_⟩
      · rw [calls, Bench.replay_created, Bench.replay_append, replayedOwn, Option.bind_some,
          Bench.replay_attached intoThere ownChain]
        exact replayedLater
      · simpa [Chain.attach, Chain.push, terms] using chain
      · intro other notInto earlier
        rw [others other notInto (by omega), Bench.builder?_put_other notInto,
          ownOthers other (notInner earlier) (by omega),
          Bench.builder?_put_other (notInner earlier)]

/-! ## Replaying a build -/

/-- Replaying the log of a build from an empty root chain gives, under the text of the root, the
chain that building the condition directly gives; so both are finished with the same text and the
same parameters. -/
theorem replay_recordBuild (scope : Scope) (condition : Condition)
    (declared : ∀ test ∈ condition.tests, test.property ∈ scope.fields.map (·.property)) :
    ∃ log bench chain, recordBuild scope condition = (.ok (), log) ∧
      Bench.ofRoot.replay log.calls = some bench ∧
      bench.builder? (toString BuilderId.root) = some (.chain chain) ∧
      (Chain.empty .and).addCondition scope condition = (.ok (), chain) := by
  have leaves := condition.leaves_assembly
  have made : BuilderId.root.number < 1 := Nat.zero_lt_one
  have started := Bench.builder?_put_same .empty (toString BuilderId.root) (.chain (.empty .and))
  obtain ⟨bench, replayed, root, -⟩ := condition.assembly.replay_calls scope made started
  refine ⟨_, bench, _, recordBuild_eq declared, replayed, root, ?_⟩
  rw [← leaves] at declared
  rw [Chain.addCondition, Backend.build_eq_carryOut, chains_carryOut declared]

/-- A group of any inside another, with a comparison of points in time and a list that holds
null. -/
theorem replay_recordBuild_samples :
    let scope := Scope.ofMetadata (some "shop") Samples.users
    let condition : Condition := .any [.propertyIn "city" ["Oulu", .null],
      .any [.propertyAfter "createdAt" "2024-01-01T00:00:00Z", .propertyIsNull "createdAt"],
      .all [.propertyBetween "age" (30 : Int64) (39 : Int64), .any []]]
    (∀ test ∈ condition.tests, test.property ∈ scope.fields.map (·.property)) ∧
      ∃ log bench chain, recordBuild scope condition = (.ok (), log) ∧
        Bench.ofRoot.replay log.calls = some bench ∧
        bench.builder? (toString BuilderId.root) = some (.chain chain) ∧
        (Chain.empty .and).addCondition scope condition = (.ok (), chain) := by
  intro scope condition
  have declared : ∀ test ∈ condition.tests, test.property ∈ scope.fields.map (·.property) := by
    decide
  exact ⟨declared, replay_recordBuild scope condition declared⟩

end EntityStore.Sql

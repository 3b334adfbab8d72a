import EntityStore.Proofs.Sql.Conditions
import EntityStore.Proofs.Sql.Recording
import EntityStore.Sql.PlainChain

/-!
What building a condition leaves in a chain.

The conjuncts of a condition are what is left of it when groups of all are spliced into the one
around them (`Condition.conjuncts`).  A chain gets one term for each, in order (`Scope.term`).  A
build fails at the first leaf that cannot be added, whether its property is not declared or the
chain has no form of its test; then the chain holds the terms of the conjuncts before the one with
that leaf, since what was made for a group of any is dropped with it
(`Backend.WrapsChains.build_eq`).  This holds of chains and of plain chains alike, which differ only
in the tests that they refuse (`addCondition_outcome`).
-/

namespace EntityStore

open Sql

/-! ## Conjuncts -/

namespace Condition

mutual

/-- The conditions that have to hold all together: a group of all stands for the conjuncts of its
members, a leaf and a group of any for itself. -/
def conjuncts : Condition → List Condition
  | .leaf test => [.leaf test]
  | .all members => conjunctsOfAll members
  | .any members => [.any members]

/-- The conjuncts of the members of a group of all. -/
def conjunctsOfAll : List Condition → List Condition
  | [] => []
  | member :: members => conjuncts member ++ conjunctsOfAll members

end

mutual

/-- The leaves of the conjuncts are those of the condition. -/
theorem flatMap_conjuncts : ∀ condition : Condition,
    condition.conjuncts.flatMap tests = condition.tests
  | .leaf test => rfl
  | .all members => flatMap_conjunctsOfAll members
  | .any members => by simp [conjuncts]

theorem flatMap_conjunctsOfAll : ∀ members : List Condition,
    (conjunctsOfAll members).flatMap tests = testsOfAll members
  | [] => rfl
  | member :: members => by
      rw [conjunctsOfAll, List.flatMap_append, flatMap_conjuncts member,
        flatMap_conjunctsOfAll members, testsOfAll]

end

/-- The second condition is the first with a group of all spliced into the group of all that it is
a member of, anywhere in the tree. -/
inductive Splices : Condition → Condition → Prop where
  | here (before members after : List Condition) :
      Splices (.all (before ++ .all members :: after)) (.all (before ++ members ++ after))
  | inAll (before after : List Condition) {member spliced : Condition}
      (inside : Splices member spliced) :
      Splices (.all (before ++ member :: after)) (.all (before ++ spliced :: after))
  | inAny (before after : List Condition) {member spliced : Condition}
      (inside : Splices member spliced) :
      Splices (.any (before ++ member :: after)) (.any (before ++ spliced :: after))

theorem assemblyOfAll_append (members others : List Condition) :
    assemblyOfAll (members ++ others) = assemblyOfAll members ++ assemblyOfAll others := by
  induction members with
  | nil => rfl
  | cons member members ih =>
      rw [List.cons_append, assemblyOfAll, ih, assemblyOfAll, Assembly.append_assoc]

theorem alternatives_append (members others : List Condition) :
    alternatives (members ++ others) = alternatives members ++ alternatives others := by
  induction members with
  | nil => rfl
  | cons member members ih =>
      rw [List.cons_append, alternatives, ih, alternatives]
      split
      · rw [Assembly.append_assoc]
      · rfl

theorem Splices.isAny_eq {condition spliced : Condition} (splices : condition.Splices spliced) :
    condition.isAny = spliced.isAny := by
  cases splices with
  | here before members after => rfl
  | inAll before after inside => rfl
  | inAny before after inside => rfl

/-- Splicing changes nothing about what goes into which builder. -/
theorem Splices.assembly_eq {condition spliced : Condition} (splices : condition.Splices spliced) :
    condition.assembly = spliced.assembly := by
  induction splices with
  | here before members after =>
      simp only [assembly, assemblyOfAll_append, assemblyOfAll, Assembly.append_assoc]
  | inAll before after inside ih =>
      simp only [assembly, assemblyOfAll_append, assemblyOfAll, ih]
  | inAny before after inside ih =>
      simp only [assembly, alternatives_append, alternatives, ih, inside.isAny_eq]

end Condition

namespace Sql

/-! ## The terms of a condition -/

namespace Scope

variable (scope : Scope)

mutual

/-- A condition as text with parameters: a group of all joins the terms of its conjuncts, and a
group of any its members, each in parentheses. -/
def written : Condition → Fragment
  | .leaf test => (scope.columnTest test).fragment
  | .all members => (Chain.mk .and (conjunctTerms members)).fragment
  | .any members => (Chain.mk .or (memberTerms members)).fragment

/-- The terms of the conjuncts of a group of all. -/
def conjunctTerms : List Condition → List Fragment
  | [] => []
  | .leaf test :: members => (scope.columnTest test).fragment :: conjunctTerms members
  | .all inner :: members => conjunctTerms inner ++ conjunctTerms members
  | .any inner :: members =>
      let joined := (Chain.mk .or (memberTerms inner)).fragment
      ⟨"(" ++ joined.text ++ ")", joined.values⟩ :: conjunctTerms members

/-- The members of a group of any, as its terms. -/
def memberTerms : List Condition → List Fragment
  | [] => []
  | member :: members =>
      let own := written member
      ⟨"(" ++ own.text ++ ")", own.values⟩ :: memberTerms members

end

/-- A conjunct as one term: a group of any stands in parentheses. -/
def term (conjunct : Condition) : Fragment :=
  let own := scope.written conjunct
  if conjunct.isAny then ⟨"(" ++ own.text ++ ")", own.values⟩ else own

theorem memberTerms_eq_map (members : List Condition) :
    scope.memberTerms members = members.map fun member => (scope.written member).grouped := by
  induction members with
  | nil => rfl
  | cons member members ih =>
      rw [memberTerms, ih, List.map_cons]
      rfl

theorem conjunctTerms_eq_map : ∀ members : List Condition,
    scope.conjunctTerms members = (Condition.conjunctsOfAll members).map scope.term
  | [] => rfl
  | .leaf test :: members => by
      rw [conjunctTerms, conjunctTerms_eq_map members]
      rfl
  | .all inner :: members => by
      rw [conjunctTerms, conjunctTerms_eq_map inner, conjunctTerms_eq_map members,
        ← List.map_append]
      rfl
  | .any inner :: members => by
      rw [conjunctTerms, conjunctTerms_eq_map members]
      rfl

/-- What an AND chain of its own makes of a condition. -/
theorem fragment_conjuncts {condition : Condition} (single : condition.isAny = false) :
    (Chain.mk .and (condition.conjuncts.map scope.term)).fragment = scope.written condition := by
  cases condition with
  | leaf test => exact Chain.fragment_singleton _ _
  | all members =>
      rw [written, conjunctTerms_eq_map]
      rfl
  | any members => cases single

end Scope

/-- A chain with more terms behind its own. -/
def Chain.extend (c : Chain) (terms : List Fragment) : Chain := { c with terms := c.terms ++ terms }

theorem Chain.extend_nil (c : Chain) : c.extend [] = c := by simp [extend]

theorem Chain.extend_extend (c : Chain) (terms others : List Fragment) :
    (c.extend terms).extend others = c.extend (terms ++ others) := by simp [extend]

/-! ## Faults -/

/-- What the first fault makes of a build. -/
def verdict : Option QueryError → Except QueryError Unit
  | none => .ok ()
  | some error => .error error

section Faults

variable (scope : Scope) (refusal? : ColumnTest → Option QueryError)

/-- Why a leaf cannot be added, if it cannot: its property is not declared, or else the test of the
column is refused. -/
def Scope.fault? (test : PropertyTest) : Option QueryError :=
  if test.property ∈ scope.fields.map (·.property) then refusal? (scope.columnTest test)
  else some (.invalid (.unknownProperty scope.table test.property))

/-- The fault of the first leaf that has one. -/
def Scope.firstFault? (tests : List PropertyTest) : Option QueryError :=
  tests.findSome? (scope.fault? refusal?)

/-- The conjuncts before the first one with a faulty leaf. -/
def Scope.keptConjuncts (conjuncts : List Condition) : List Condition :=
  conjuncts.takeWhile fun conjunct => (scope.firstFault? refusal? conjunct.tests).isNone

variable {scope refusal?} {conjuncts : List Condition}

theorem Scope.resolve_of_undeclared {test : PropertyTest}
    (undeclared : test.property ∉ scope.fields.map (·.property)) :
    scope.resolve test = .error (.invalid (.unknownProperty scope.table test.property)) := by
  have absent : scope.fields.find? (·.property == test.property) = none := by
    refine List.find?_eq_none.mpr fun field member same => undeclared ?_
    exact List.mem_map.mpr ⟨field, member, by simpa using same⟩
  rw [resolve, absent]

theorem Scope.fault?_eq_none_iff {test : PropertyTest} :
    scope.fault? refusal? test = none ↔
      test.property ∈ scope.fields.map (·.property) ∧
        refusal? (scope.columnTest test) = none := by
  unfold fault?
  split
  · rename_i declared
    simp [declared]
  · rename_i undeclared
    simp [undeclared]

theorem Scope.firstFault?_eq_none_iff {tests : List PropertyTest} :
    scope.firstFault? refusal? tests = none ↔
      ∀ test ∈ tests, test.property ∈ scope.fields.map (·.property) ∧
        refusal? (scope.columnTest test) = none := by
  simp only [firstFault?, List.findSome?_eq_none_iff, fault?_eq_none_iff]

theorem Scope.firstFault?_append (tests others : List PropertyTest) :
    scope.firstFault? refusal? (tests ++ others) =
      (scope.firstFault? refusal? tests).or (scope.firstFault? refusal? others) :=
  List.findSome?_append

/-- Behind conjuncts without a fault it depends on the next which are kept. -/
theorem Scope.keptConjuncts_append_of_none (others : List Condition)
    (sound : scope.firstFault? refusal? (conjuncts.flatMap Condition.tests) = none) :
    scope.keptConjuncts refusal? (conjuncts ++ others) =
      conjuncts ++ scope.keptConjuncts refusal? others := by
  induction conjuncts with
  | nil => rfl
  | cons conjunct rest ih =>
      rw [List.flatMap_cons, firstFault?_append, Option.or_eq_none_iff] at sound
      have kept := ih sound.2
      unfold keptConjuncts at kept ⊢
      rw [List.cons_append, List.takeWhile_cons_of_pos (by rw [sound.1]; rfl), kept,
        List.cons_append]

/-- Where a leaf has a fault, there is a first conjunct with a faulty leaf, whose fault decides. -/
theorem Scope.exists_failing {error : QueryError}
    (faulty : scope.firstFault? refusal? (conjuncts.flatMap Condition.tests) = some error) :
    ∃ added failing rest, conjuncts = added ++ failing :: rest ∧
      scope.firstFault? refusal? (added.flatMap Condition.tests) = none ∧
      scope.firstFault? refusal? failing.tests = some error := by
  induction conjuncts with
  | nil => cases faulty
  | cons conjunct others ih =>
      rw [List.flatMap_cons, firstFault?_append] at faulty
      cases first : scope.firstFault? refusal? conjunct.tests with
      | none =>
          rw [first, Option.none_or] at faulty
          obtain ⟨added, failing, rest, split, sound, fault⟩ := ih faulty
          refine ⟨conjunct :: added, failing, rest, congrArg (conjunct :: ·) split, ?_, fault⟩
          rw [List.flatMap_cons, firstFault?_append, first, sound, Option.none_or]
      | some fault =>
          rw [first] at faulty
          cases faulty
          exact ⟨[], conjunct, others, rfl, rfl, first⟩

/-- What is kept ends before the first conjunct with a fault. -/
theorem Scope.keptConjuncts_append_cons {added rest : List Condition} {failing : Condition}
    {error : QueryError}
    (sound : scope.firstFault? refusal? (added.flatMap Condition.tests) = none)
    (fault : scope.firstFault? refusal? failing.tests = some error) :
    scope.keptConjuncts refusal? (added ++ failing :: rest) = added := by
  have stops : scope.keptConjuncts refusal? (failing :: rest) = [] :=
    List.takeWhile_cons_of_neg (by rw [fault]; simp)
  rw [keptConjuncts_append_of_none _ sound, stops, List.append_nil]

theorem Scope.keptConjuncts_append_of_some (others : List Condition) {error : QueryError}
    (faulty : scope.firstFault? refusal? (conjuncts.flatMap Condition.tests) = some error) :
    scope.keptConjuncts refusal? (conjuncts ++ others) =
      scope.keptConjuncts refusal? conjuncts := by
  obtain ⟨added, failing, rest, split, sound, fault⟩ := exists_failing faulty
  rw [split, List.append_assoc, List.cons_append, keptConjuncts_append_cons sound fault,
    keptConjuncts_append_cons sound fault]

theorem Scope.keptConjuncts_singleton_of_some {conjunct : Condition} {error : QueryError}
    (fault : scope.firstFault? refusal? conjunct.tests = some error) :
    scope.keptConjuncts refusal? [conjunct] = [] :=
  @keptConjuncts_append_cons scope refusal? [] [] conjunct error rfl fault

theorem Scope.keptConjuncts_of_none
    (sound : scope.firstFault? refusal? (conjuncts.flatMap Condition.tests) = none) :
    scope.keptConjuncts refusal? conjuncts = conjuncts := by
  have kept := keptConjuncts_append_of_none [] sound
  rwa [List.append_nil, keptConjuncts, keptConjuncts, List.takeWhile_nil, List.append_nil] at kept

end Faults

/-! ## Building into chains -/

/-- The builders are chains, each with the same thing around it, and refuse some tests. -/
structure Backend.WrapsChains {β : Type} (backend : Backend β Unit) (around : Chain → β)
    (refusal? : ColumnTest → Option QueryError) : Prop where
  create : ∀ connective, backend.create connective () = (around (Chain.empty connective), ())
  add : ∀ test c, refusal? test = none →
    backend.add test (around c) () = (.ok (), around (c.extend [test.fragment]), ())
  refuse : ∀ test c error, refusal? test = some error →
    backend.add test (around c) () = (.error error, around c, ())
  attach : ∀ source c,
    backend.attach source (around c) () = (around (c.extend [source.grouped]), ())
  fragment : ∀ c, backend.fragment (around c) = c.fragment

namespace Backend.WrapsChains

variable {β : Type} {backend : Backend β Unit} {around : Chain → β}
  {refusal? : ColumnTest → Option QueryError} (scope : Scope)

/-- A leaf that can be added becomes a term, and no other leaves a trace. -/
theorem buildLeaf_eq (wraps : backend.WrapsChains around refusal?) (test : PropertyTest)
    (c : Chain) :
    backend.build scope (.leaf test) (around c) () =
      (verdict (scope.firstFault? refusal? [test]),
        around (c.extend ((scope.keptConjuncts refusal? [.leaf test]).map scope.term)), ()) := by
  have alone : scope.firstFault? refusal? [test] = scope.fault? refusal? test := by
    simp [Scope.firstFault?]
  rw [Backend.build, alone]
  by_cases declared : test.property ∈ scope.fields.map (·.property)
  · rw [Scope.resolve_eq_columnTest declared, Scope.fault?, if_pos declared]
    cases refused : refusal? (scope.columnTest test) with
    | none =>
        have kept : scope.keptConjuncts refusal? [.leaf test] = [.leaf test] :=
          Scope.keptConjuncts_of_none
            (alone.trans (Scope.fault?_eq_none_iff.mpr ⟨declared, refused⟩))
        rw [kept]
        exact wraps.add _ c refused
    | some error =>
        have kept : scope.keptConjuncts refusal? [.leaf test] = [] :=
          Scope.keptConjuncts_singleton_of_some
            (alone.trans ((if_pos declared).trans refused))
        rw [kept, List.map_nil, Chain.extend_nil]
        exact wraps.refuse _ c error refused
  · have kept : scope.keptConjuncts refusal? [.leaf test] = [] :=
      Scope.keptConjuncts_singleton_of_some (alone.trans (if_neg declared))
    rw [Scope.resolve_of_undeclared declared, Scope.fault?, if_neg declared, kept, List.map_nil,
      Chain.extend_nil]
    rfl

mutual

/-- A build ends with the first fault among the leaves, and leaves the terms of the conjuncts
before it. -/
theorem build_eq (wraps : backend.WrapsChains around refusal?) :
    ∀ (condition : Condition) (c : Chain),
    backend.build scope condition (around c) () =
      (verdict (scope.firstFault? refusal? condition.tests),
        around (c.extend ((scope.keptConjuncts refusal? condition.conjuncts).map scope.term)), ())
  | .leaf test, c => buildLeaf_eq scope wraps test c
  | .all members, c => by
      rw [Backend.build]
      exact buildAll_eq wraps members c
  | .any members, c => by
      obtain ⟨left, built, whole⟩ := buildAlternatives_eq wraps members (Chain.empty .or)
      rw [Backend.build, wraps.create]
      simp only [built]
      cases fault : scope.firstFault? refusal? (Condition.testsOfAll members) with
      | none =>
          have sound : scope.firstFault? refusal?
              ((Condition.any members).conjuncts.flatMap Condition.tests) = none := by
            rw [Condition.flatMap_conjuncts]
            exact fault
          have kept : scope.keptConjuncts refusal? [.any members] = [.any members] :=
            Scope.keptConjuncts_of_none sound
          have term : scope.term (.any members) = left.fragment.grouped := by
            rw [whole fault]
            rfl
          simp only [verdict, Condition.tests, Condition.conjuncts, fault, kept, wraps.fragment,
            wraps.attach, List.map_singleton, term]
      | some error =>
          have kept : scope.keptConjuncts refusal? [.any members] = [] :=
            Scope.keptConjuncts_singleton_of_some fault
          simp only [verdict, Condition.tests, Condition.conjuncts, fault, kept, List.map_nil,
            Chain.extend_nil]

theorem buildAll_eq (wraps : backend.WrapsChains around refusal?) :
    ∀ (members : List Condition) (c : Chain),
    backend.buildAll scope members (around c) () =
      (verdict (scope.firstFault? refusal? (Condition.testsOfAll members)),
        around (c.extend ((scope.keptConjuncts refusal? (Condition.conjunctsOfAll members)).map
          scope.term)), ())
  | [], c => by
      rw [Backend.buildAll]
      exact congrArg (fun c => (Except.ok (), around c, ())) c.extend_nil.symm
  | member :: members, c => by
      rw [Backend.buildAll, build_eq wraps member c, Condition.testsOfAll, Condition.conjunctsOfAll,
        Scope.firstFault?_append]
      cases fault : scope.firstFault? refusal? member.tests with
      | none =>
          have sound := fault
          rw [← member.flatMap_conjuncts] at sound
          rw [Scope.keptConjuncts_append_of_none _ sound, Scope.keptConjuncts_of_none sound,
            List.map_append, ← Chain.extend_extend]
          exact buildAll_eq wraps members _
      | some error =>
          have faulty := fault
          rw [← member.flatMap_conjuncts] at faulty
          rw [Scope.keptConjuncts_append_of_some _ faulty]
          rfl

/-- An OR builder gets its members as terms, if no leaf of them has a fault. -/
theorem buildAlternatives_eq (wraps : backend.WrapsChains around refusal?) :
    ∀ (members : List Condition) (c : Chain), ∃ left,
    backend.buildAlternatives scope members (around c) () =
        (verdict (scope.firstFault? refusal? (Condition.testsOfAll members)), around left, ()) ∧
      (scope.firstFault? refusal? (Condition.testsOfAll members) = none →
        left = c.extend (scope.memberTerms members))
  | [], c => by
      refine ⟨c, ?_, fun _ => c.extend_nil.symm⟩
      rw [Backend.buildAlternatives]
      rfl
  | member :: members, c => by
      rw [Backend.buildAlternatives, Condition.testsOfAll, Scope.firstFault?_append]
      cases fault : scope.firstFault? refusal? member.tests with
      | none =>
          have sound := fault
          rw [← member.flatMap_conjuncts] at sound
          obtain ⟨left, built, whole⟩ :=
            buildAlternatives_eq wraps members (c.extend [(scope.written member).grouped])
          refine ⟨left, ?_, fun rest => ?_⟩
          · by_cases isAny : member.isAny = true
            -- a group of any goes to the OR builder at hand, as its one conjunct
            · rw [if_pos isAny, build_eq wraps member c, fault, Scope.keptConjuncts_of_none sound]
              have single : member.conjuncts.map scope.term = [(scope.written member).grouped] := by
                cases member with
                | leaf test => cases isAny
                | all members => cases isAny
                | any members => rfl
              simp only [verdict, single, built, Option.none_or]
            · rw [if_neg isAny, wraps.create]
              simp only [build_eq wraps member (Chain.empty .and), fault, verdict,
                Scope.keptConjuncts_of_none sound, wraps.fragment, wraps.attach]
              have own : ((Chain.empty .and).extend (member.conjuncts.map scope.term)).fragment =
                  scope.written member :=
                scope.fragment_conjuncts (Bool.eq_false_iff.mpr isAny)
              rw [own, built, Option.none_or]
              rfl
          · rw [whole rest, Chain.extend_extend]
            rfl
      | some error =>
          by_cases isAny : member.isAny = true
          · rw [if_pos isAny, build_eq wraps member c, fault]
            exact ⟨_, rfl, nofun⟩
          · rw [if_neg isAny, wraps.create]
            simp only [build_eq wraps member (Chain.empty .and), fault]
            exact ⟨c, rfl, nofun⟩

end

end Backend.WrapsChains

/-- A chain has a form of every test. -/
theorem chains_wrapsChains : chains.WrapsChains id fun _ => none where
  create _ := rfl
  add _ _ _ := rfl
  refuse _ _ _ refused := nomatch refused
  attach _ _ := rfl
  fragment _ := rfl

/-- How a plain chain refuses a test, if it does. -/
def PlainChain.refusal? (name : String) (test : ColumnTest) : Option QueryError :=
  if supports test then none else some (.unsupported test.kindName name)

theorem plainChains_wrapsChains (name : String) :
    (plainChains name).WrapsChains (PlainChain.mk name) (PlainChain.refusal? name) where
  create _ := rfl
  add test c accepted := by
    have supported : PlainChain.supports test = true := by
      simpa [PlainChain.refusal?] using accepted
    simp only [plainChains, PlainChain.add, supported, if_true]
    rfl
  refuse test c error refused := by
    unfold PlainChain.refusal? at refused
    split at refused
    · cases refused
    · rename_i unsupported
      cases refused
      simp only [plainChains, PlainChain.add, if_neg unsupported]
  attach _ _ := rfl
  fragment _ := rfl

/-! ## The outcome of a build -/

/-- What building a condition into a chain that refuses some tests answers, and the chain after
it. -/
structure BuildOutcome (scope : Scope) (refusal? : ColumnTest → Option QueryError)
    (condition : Condition) (before : Chain) (result : Except QueryError Unit) (after : Chain) :
    Prop where
  /-- A build succeeds if every leaf can be added. -/
  succeeds_iff : result = .ok () ↔ ∀ test ∈ condition.tests,
    test.property ∈ scope.fields.map (·.property) ∧ refusal? (scope.columnTest test) = none
  /-- Then there is one new term for each conjunct. -/
  whole : result = .ok () → after = before.extend (condition.conjuncts.map scope.term)
  /-- It fails for the first leaf that cannot be added. -/
  fails_iff : ∀ error, result = .error error ↔
    scope.firstFault? refusal? condition.tests = some error
  /-- Then there is one new term for each conjunct before the one with that leaf. -/
  partly : ∀ error, result = .error error → ∃ added failing rest,
    condition.conjuncts = added ++ failing :: rest ∧
      scope.firstFault? refusal? (added.flatMap Condition.tests) = none ∧
      scope.firstFault? refusal? failing.tests = some error ∧
      after = before.extend (added.map scope.term)

theorem BuildOutcome.of_build {scope : Scope} {refusal? : ColumnTest → Option QueryError}
    (condition : Condition) (before : Chain) :
    BuildOutcome scope refusal? condition before
      (verdict (scope.firstFault? refusal? condition.tests))
      (before.extend ((scope.keptConjuncts refusal? condition.conjuncts).map scope.term)) := by
  cases first : scope.firstFault? refusal? condition.tests with
  | none =>
      have sound := first
      rw [← condition.flatMap_conjuncts] at sound
      refine ⟨⟨fun _ => Scope.firstFault?_eq_none_iff.mp first, fun _ => rfl⟩, fun _ => ?_,
        fun error => ⟨nofun, fun faulty => ?_⟩, nofun⟩
      · rw [Scope.keptConjuncts_of_none sound]
      · cases first.symm.trans faulty
  | some fault =>
      have faulty := first
      rw [← condition.flatMap_conjuncts] at faulty
      refine ⟨⟨nofun, fun sound => ?_⟩, nofun, fun error => ?_, fun error failed => ?_⟩
      · cases first.symm.trans (Scope.firstFault?_eq_none_iff.mpr sound)
      · simp [verdict, first]
      · cases failed
        obtain ⟨added, failing, rest, split, sound, atFault⟩ := Scope.exists_failing faulty
        refine ⟨added, failing, rest, split, sound, atFault, ?_⟩
        rw [split, Scope.keptConjuncts_append_cons sound atFault]

/-- Building a condition into a chain, or into a plain chain, adds one term for each of its
conjuncts, in order; a group of any is one term in parentheses, with one in parentheses for each
member.  If a leaf cannot be added, the build fails for the first such leaf, and only the terms of
the conjuncts before it have been added.  So it makes no difference whether a group of all is
spliced into the one around it. -/
theorem addCondition_outcome (c : Chain) (name : String) (scope : Scope) (condition : Condition) :
    let plain : PlainChain := ⟨name, c⟩
    BuildOutcome scope (fun _ => none) condition c (c.addCondition scope condition).1
        (c.addCondition scope condition).2 ∧
      (BuildOutcome scope (PlainChain.refusal? name) condition c
          (plain.addCondition scope condition).1 (plain.addCondition scope condition).2.chain ∧
        (plain.addCondition scope condition).2.name = name) ∧
      (∀ members,
        let joined := (Chain.mk .or (members.map fun member =>
          ⟨"(" ++ (scope.written member).text ++ ")", (scope.written member).values⟩)).fragment
        scope.term (.any members) = ⟨"(" ++ joined.text ++ ")", joined.values⟩) ∧
      ∀ spliced, condition.Splices spliced →
        c.addCondition scope spliced = c.addCondition scope condition ∧
          plain.addCondition scope spliced = plain.addCondition scope condition := by
  intro plain
  have built := chains_wrapsChains.build_eq scope condition c
  have builtPlain := (plainChains_wrapsChains name).build_eq scope condition c
  refine ⟨?_, ⟨?_, ?_⟩, fun members => ?_, fun spliced splices => ⟨?_, ?_⟩⟩
  · unfold Chain.addCondition
    rw [show chains.build scope condition c () = _ from built]
    exact .of_build condition c
  · unfold PlainChain.addCondition
    rw [show (plainChains plain.name).build scope condition plain () = _ from builtPlain]
    exact .of_build condition c
  · unfold PlainChain.addCondition
    rw [show (plainChains plain.name).build scope condition plain () = _ from builtPlain]
  · show (Chain.mk .or (scope.memberTerms members)).fragment.grouped = _
    rw [scope.memberTerms_eq_map]
    rfl
  · unfold Chain.addCondition
    rw [Backend.build_eq_carryOut, ← splices.assembly_eq, ← Backend.build_eq_carryOut]
  · unfold PlainChain.addCondition
    rw [Backend.build_eq_carryOut, ← splices.assembly_eq, ← Backend.build_eq_carryOut]

/-- A chain gets a term for the name and one for the group of any; a plain chain refuses the check
of the city.  The condition is the same without the inner group of all. -/
theorem addCondition_outcome_samples :
    let scope := Scope.ofMetadata none Samples.users
    let named := Condition.propertyEquals "name" "Ada"
    let either := Condition.any [.propertyIsNotNull "city", .propertyAfter "age" (17 : Int64)]
    let condition := Condition.all [.all [named], either]
    let c := Chain.empty .or
    let plain : PlainChain := ⟨"PlainChain", c⟩
    c.addCondition scope condition = (.ok (), c.extend ([named, either].map scope.term)) ∧
      (plain.addCondition scope condition).1 =
        .error (.unsupported "is-not-null" "PlainChain") ∧
      condition.Splices (.all [named, either]) ∧
      c.addCondition scope (.all [named, either]) = c.addCondition scope condition := by
  intro scope named either condition c plain
  obtain ⟨inChain, ⟨inPlain, -⟩, -, spliced⟩ :=
    addCondition_outcome c "PlainChain" scope condition
  have succeeded := inChain.succeeds_iff.mpr (by decide +kernel)
  have refused := (inPlain.fails_iff (.unsupported "is-not-null" "PlainChain")).mpr
    (by decide +kernel)
  have splices : condition.Splices (.all [named, either]) := .here [] [named] [either]
  exact ⟨Prod.ext succeeded (inChain.whole succeeded), refused, splices, (spliced _ splices).1⟩

end Sql

end EntityStore

import EntityStore.Samples
import EntityStore.Sql.WhereClause

/-!
Operands do not show in the text.

Two conditions have the same form if they differ in the operands of their tests alone, and agree on
where an operand is null (`Condition.SameForm`); nothing else of an operand is looked at when the
text is written.  Built side by side, such conditions add terms with the same text and equally many
parameters (`build_sameForm`), and fail alike.  The operands go to the parameters, all of them but
for the nulls that the text asks for (`build_values`).  So what an operand holds, question marks and
quotes included, cannot become part of a query (`whereClause_sameForm`).
-/

namespace EntityStore

/-! ## Conditions of one form -/

/-- The operands that become parameters: nulls are asked for by the text of an equality and of a
membership, and are parameters like others elsewhere. -/
def Predicate.parameters : Predicate → List Value
  | .equals operand => [operand].filter fun operand => !operand.isNull
  | .oneOf operands => operands.filter fun operand => !operand.isNull
  | predicate => predicate.operands

/-- The parameters of tests, one test after the other. -/
def PropertyTest.parametersOf (tests : List PropertyTest) : List Value :=
  tests.flatMap (·.predicate.parameters)

/-- The parameters of a condition, leaf by leaf. -/
def Condition.parameters (condition : Condition) : List Value :=
  PropertyTest.parametersOf condition.tests

/-- Predicates of one kind.  The operands of equalities are both null or neither is; lists of
operands have equally many that are not null, and both have a null or neither has. -/
inductive Predicate.SameForm : Predicate → Predicate → Prop where
  | equals {a b : Value} (nulls : a.isNull = b.isNull) : SameForm (.equals a) (.equals b)
  | before (a b : Value) : SameForm (.before a) (.before b)
  | after (a b : Value) : SameForm (.after a) (.after b)
  | between (first last first' last' : Value) :
      SameForm (.between first last) (.between first' last')
  | oneOf {as bs : List Value}
      (counts : (as.filter fun a => !a.isNull).length = (bs.filter fun b => !b.isNull).length)
      (nulls : as.any Value.isNull = bs.any Value.isNull) : SameForm (.oneOf as) (.oneOf bs)
  | isNull : SameForm .isNull .isNull
  | isNotNull : SameForm .isNotNull .isNotNull

mutual

/-- Conditions with the same groups, and at each leaf the same property and predicates of the same
form. -/
inductive Condition.SameForm : Condition → Condition → Prop where
  | leaf {predicate predicate' : Predicate} (property : String)
      (same : predicate.SameForm predicate') :
      SameForm (.leaf ⟨property, predicate⟩) (.leaf ⟨property, predicate'⟩)
  | all {members members' : List Condition} (same : SameForms members members') :
      SameForm (.all members) (.all members')
  | any {members members' : List Condition} (same : SameForms members members') :
      SameForm (.any members) (.any members')

/-- Lists of conditions that have the same form one by one. -/
inductive Condition.SameForms : List Condition → List Condition → Prop where
  | nil : SameForms [] []
  | cons {member member' : Condition} {members members' : List Condition}
      (first : SameForm member member') (rest : SameForms members members') :
      SameForms (member :: members) (member' :: members')

end

theorem Condition.SameForm.isAny_eq {a b : Condition} (same : a.SameForm b) :
    a.isAny = b.isAny := by
  cases same with
  | leaf property same => rfl
  | all same => rfl
  | any same => rfl

namespace Sql

/-! ## Fragments and chains of one form -/

/-- Fragments with the same text and equally many parameters. -/
structure Fragment.SameForm (a b : Fragment) : Prop where
  text : a.text = b.text
  count : a.parameterCount = b.parameterCount

theorem Fragment.SameForm.grouped {a b : Fragment} (same : a.SameForm b) :
    a.grouped.SameForm b.grouped :=
  ⟨congrArg (fun text => "(" ++ text ++ ")") same.text, same.count⟩

theorem Fragment.SameForm.numbered {a b : Fragment} (same : a.SameForm b) :
    a.numbered.SameForm b.numbered :=
  ⟨congrArg numberPlaceholders same.text, same.count⟩

/-- Chains whose terms have the same form one by one. -/
structure Chain.SameForm (a b : Chain) : Prop where
  connective : a.connective = b.connective
  texts : a.terms.map Fragment.text = b.terms.map Fragment.text
  counts : a.terms.map Fragment.parameterCount = b.terms.map Fragment.parameterCount

namespace Chain.SameForm

variable {a b : Chain}

theorem empty (connective : Connective) :
    (Chain.empty connective).SameForm (Chain.empty connective) := ⟨rfl, rfl, rfl⟩

theorem push (same : a.SameForm b) {term term' : Fragment} (terms : term.SameForm term') :
    (a.push term).SameForm (b.push term') := by
  refine ⟨same.connective, ?_, ?_⟩
  · simp only [Chain.push, List.map_append, List.map_singleton, same.texts, terms.text]
  · simp only [Chain.push, List.map_append, List.map_singleton, same.counts, terms.count]

theorem fragment (same : a.SameForm b) : a.fragment.SameForm b.fragment := by
  have sizes : a.terms.isEmpty = b.terms.isEmpty := by
    have empty := congrArg List.isEmpty same.texts
    rwa [List.isEmpty_map, List.isEmpty_map] at empty
  refine ⟨?_, ?_⟩
  · simp only [Chain.fragment, Chain.text, sizes, same.connective, same.texts]
  · simp only [Chain.fragment, Fragment.parameterCount, Chain.values, List.length_flatMap]
    exact congrArg List.sum same.counts

theorem attach (same : a.SameForm b) {source source' : Fragment}
    (sources : source.SameForm source') : (a.attach source).SameForm (b.attach source') :=
  same.push sources.grouped

end Chain.SameForm

/-! ## Tests -/

theorem ColumnTest.fragment_sameForm (table column : String) (asTime : Bool)
    {predicate predicate' : Predicate} (same : predicate.SameForm predicate') :
    (ColumnTest.mk table column predicate asTime).fragment.SameForm
      (ColumnTest.mk table column predicate' asTime).fragment := by
  cases same with
  | @equals a b nulls =>
      simp only [fragment, nulls]
      split
      · exact ⟨rfl, rfl⟩
      · exact ⟨rfl, rfl⟩
  | before a b => exact ⟨rfl, rfl⟩
  | after a b => exact ⟨rfl, rfl⟩
  | between first last first' last' => exact ⟨rfl, rfl⟩
  | @oneOf as bs counts nulls =>
      have none : (as.filter fun a => !a.isNull).isEmpty =
          (bs.filter fun b => !b.isNull).isEmpty := by
        rw [Bool.eq_iff_iff, List.isEmpty_iff_length_eq_zero, List.isEmpty_iff_length_eq_zero,
          counts]
      simp only [fragment, membership, none, nulls, counts]
      split
      · split
        · exact ⟨rfl, rfl⟩
        · exact ⟨rfl, rfl⟩
      · split
        · exact ⟨rfl, counts⟩
        · exact ⟨rfl, counts⟩
  | isNull => exact ⟨rfl, rfl⟩
  | isNotNull => exact ⟨rfl, rfl⟩

/-- The operands of a test are its parameters, but for nulls that its text asks for. -/
theorem ColumnTest.values_fragment (test : ColumnTest) :
    test.fragment.values = test.predicate.parameters := by
  obtain ⟨table, column, predicate, asTime⟩ := test
  cases predicate with
  | equals operand =>
      cases null : operand.isNull with
      | true => simp [fragment, Predicate.parameters, null, nullCheck]
      | false => simp [fragment, Predicate.parameters, null, comparison]
  | oneOf operands =>
      simp only [fragment, membership, Predicate.parameters]
      split
      · rename_i none
        rw [List.isEmpty_iff.mp none]
        split
        · rfl
        · rfl
      · split
        · rfl
        · rfl
  | _ => rfl

/-! ## Building -/

/-- Builds that end alike, with chains of the same form. -/
inductive SameOutcome :
    Except QueryError Unit × Chain × Unit → Except QueryError Unit × Chain × Unit → Prop where
  | failed {chain chain' : Chain} (error : QueryError) (same : chain.SameForm chain') :
      SameOutcome (.error error, chain, ()) (.error error, chain', ())
  | done {chain chain' : Chain} (same : chain.SameForm chain') :
      SameOutcome (.ok (), chain, ()) (.ok (), chain', ())

section Building

variable {scope : Scope}

theorem buildLeaf_sameForm (property : String) {predicate predicate' : Predicate}
    (same : predicate.SameForm predicate') {chain chain' : Chain} (alike : chain.SameForm chain') :
    SameOutcome (chains.build scope (.leaf ⟨property, predicate⟩) chain ())
      (chains.build scope (.leaf ⟨property, predicate'⟩) chain' ()) := by
  rw [Backend.build, Backend.build]
  unfold Scope.resolve
  cases scope.fields.find? (·.property == property) with
  | none => exact .failed _ alike
  | some field => exact .done (alike.push (ColumnTest.fragment_sameForm _ _ _ same))

mutual

/-- Conditions of the same form are built with the same result, and add terms of the same form. -/
theorem build_sameForm : ∀ {a b : Condition}, a.SameForm b → ∀ {chain chain' : Chain},
    chain.SameForm chain' →
      SameOutcome (chains.build scope a chain ()) (chains.build scope b chain' ())
  | _, _, .leaf property same, _, _, alike => buildLeaf_sameForm property same alike
  | _, _, .all same, _, _, alike => buildAll_sameForm same alike
  | .any members, .any members', .any same, chain, chain', alike => by
      have built := buildAlternatives_sameForm same (Chain.SameForm.empty .or)
      have created : chains.create .or () = (Chain.empty .or, ()) := rfl
      rw [Backend.build, Backend.build, created]
      simp only
      generalize chains.buildAlternatives scope members (Chain.empty .or) () = one at built ⊢
      generalize chains.buildAlternatives scope members' (Chain.empty .or) () = other at built ⊢
      cases built with
      | failed error terms => exact .failed error alike
      | done terms => exact .done (alike.attach terms.fragment)

theorem buildAll_sameForm : ∀ {members members' : List Condition},
    Condition.SameForms members members' → ∀ {chain chain' : Chain}, chain.SameForm chain' →
      SameOutcome (chains.buildAll scope members chain ())
        (chains.buildAll scope members' chain' ())
  | _, _, .nil, _, _, alike => by
      rw [Backend.buildAll, Backend.buildAll]
      exact .done alike
  | member :: members, member' :: members', .cons first rest, chain, chain', alike => by
      have built := build_sameForm first alike
      rw [Backend.buildAll, Backend.buildAll]
      generalize chains.build scope member chain () = one at built ⊢
      generalize chains.build scope member' chain' () = other at built ⊢
      cases built with
      | failed error terms => exact .failed error terms
      | done terms => exact buildAll_sameForm rest terms

theorem buildAlternatives_sameForm : ∀ {members members' : List Condition},
    Condition.SameForms members members' → ∀ {chain chain' : Chain}, chain.SameForm chain' →
      SameOutcome (chains.buildAlternatives scope members chain ())
        (chains.buildAlternatives scope members' chain' ())
  | _, _, .nil, _, _, alike => by
      rw [Backend.buildAlternatives, Backend.buildAlternatives]
      exact .done alike
  | member :: members, member' :: members', .cons first rest, chain, chain', alike => by
      rw [Backend.buildAlternatives, Backend.buildAlternatives, first.isAny_eq]
      split
      -- A group of any adds to the alternatives at hand; any other member has a chain of its own.
      · have built := build_sameForm first alike
        generalize chains.build scope member chain () = one at built ⊢
        generalize chains.build scope member' chain' () = other at built ⊢
        cases built with
        | failed error terms => exact .failed error terms
        | done terms => exact buildAlternatives_sameForm rest terms
      · have built := build_sameForm first (Chain.SameForm.empty .and)
        have created : chains.create .and () = (Chain.empty .and, ()) := rfl
        rw [created]
        simp only
        generalize chains.build scope member (Chain.empty .and) () = one at built ⊢
        generalize chains.build scope member' (Chain.empty .and) () = other at built ⊢
        cases built with
        | failed error terms => exact .failed error alike
        | done terms => exact buildAlternatives_sameForm rest (alike.attach terms.fragment)

end

theorem Chain.values_push (chain : Chain) (term : Fragment) :
    (chain.push term).values = chain.values ++ term.values := by
  simp [push, values]

theorem parametersOf_append (tests tests' : List PropertyTest) :
    PropertyTest.parametersOf (tests ++ tests') =
      PropertyTest.parametersOf tests ++ PropertyTest.parametersOf tests' :=
  List.flatMap_append

mutual

/-- A chain that a condition is built into gets the parameters of the condition behind its own. -/
theorem build_values : ∀ (condition : Condition) {chain after : Chain},
    chains.build scope condition chain () = (.ok (), after, ()) →
      after.values = chain.values ++ condition.parameters
  | .leaf test, chain, after => by
      intro built
      rw [Backend.build] at built
      unfold Scope.resolve at built
      cases found : scope.fields.find? (·.property == test.property) with
      | none =>
          rw [found] at built
          cases built
      | some field =>
          rw [found] at built
          cases built
          have values := Chain.values_push chain (ColumnTest.mk scope.table field.column
            test.predicate (scope.temporals.any (·.property == test.property))).fragment
          rw [ColumnTest.values_fragment] at values
          exact values.trans (congrArg (chain.values ++ ·) (List.flatMap_singleton _ _).symm)
  | .all members, chain, after => buildAll_values members
  | .any members, chain, after => by
      intro built
      have created : chains.create .or () = (Chain.empty .or, ()) := rfl
      rw [Backend.build, created] at built
      simp only at built
      split at built
      · cases built
      · rename_i alternatives shared builtMembers
        have values := buildAlternatives_values members builtMembers
        cases built
        exact (Chain.values_push chain _).trans (congrArg (chain.values ++ ·) values)

theorem buildAll_values : ∀ (members : List Condition) {chain after : Chain},
    chains.buildAll scope members chain () = (.ok (), after, ()) →
      after.values =
        chain.values ++ PropertyTest.parametersOf (Condition.testsOfAll members)
  | [], chain, after => by
      intro built
      rw [Backend.buildAll] at built
      cases built
      exact (List.append_nil _).symm
  | member :: members, chain, after => by
      intro built
      rw [Backend.buildAll] at built
      split at built
      · cases built
      · rename_i next shared builtMember
        rw [buildAll_values members built, build_values member builtMember, Condition.testsOfAll,
          parametersOf_append, List.append_assoc]
        rfl

theorem buildAlternatives_values : ∀ (members : List Condition) {chain after : Chain},
    chains.buildAlternatives scope members chain () = (.ok (), after, ()) →
      after.values =
        chain.values ++ PropertyTest.parametersOf (Condition.testsOfAll members)
  | [], chain, after => by
      intro built
      rw [Backend.buildAlternatives] at built
      cases built
      exact (List.append_nil _).symm
  | member :: members, chain, after => by
      intro built
      rw [Backend.buildAlternatives] at built
      split at built
      · split at built
        · cases built
        · rename_i next shared builtMember
          rw [buildAlternatives_values members built, build_values member builtMember,
            Condition.testsOfAll, parametersOf_append, List.append_assoc]
          rfl
      · have created : chains.create .and () = (Chain.empty .and, ()) := rfl
        rw [created] at built
        simp only at built
        split at built
        · cases built
        · rename_i own shared builtMember
          have values := build_values member builtMember
          rw [buildAlternatives_values members built, Condition.testsOfAll, parametersOf_append,
            ← List.append_assoc]
          congr 1
          exact (Chain.values_push chain _).trans (congrArg (chain.values ++ ·) values)

end

end Building

/-! ## Finished text -/

/-- Operands do not show in the text: for conditions of the same form it either cannot be written,
for the same reason, or is the same, with equally many parameters.  These are the operands of the
leaves, in their order, without the nulls of equalities and of lists. -/
theorem whereClause_sameForm (schema : Option String) (m : Metadata) (a b : Condition)
    (same : a.SameForm b) :
    (∃ error, whereClause schema m a = .error error ∧ whereClause schema m b = .error error) ∨
      ∃ one other : Fragment,
        whereClause schema m a = .ok one ∧ whereClause schema m b = .ok other ∧
          one.text = other.text ∧ one.values.length = other.values.length ∧
          one.values = a.parameters ∧ other.values = b.parameters := by
  have built := @build_sameForm (Scope.ofMetadata schema m) a b same _ _
    (Chain.SameForm.empty .and)
  have values := @build_values (Scope.ofMetadata schema m) a (Chain.empty .and)
  have values' := @build_values (Scope.ofMetadata schema m) b (Chain.empty .and)
  unfold whereClause Chain.addCondition
  generalize chains.build (Scope.ofMetadata schema m) a (Chain.empty .and) () = one at *
  generalize chains.build (Scope.ofMetadata schema m) b (Chain.empty .and) () = other at *
  cases built with
  | failed error terms => exact .inl ⟨error, rfl, rfl⟩
  | done terms =>
      have finished := terms.fragment.numbered
      exact .inr ⟨_, _, rfl, rfl, finished.text, finished.count, values rfl, values' rfl⟩

/-- Operands that look like markers, quotes and SQL are parameters as others are. -/
theorem whereClause_sameForm_samples :
    let condition (city : Value) (names : List Value) (limit : Value) : Condition :=
      .any [.propertyEquals "city" city,
        .all [.propertyIn "name" names, .propertyBefore "createdAt" limit]]
    let plain := condition "Oulu" ["Ada", .null] .null
    let hostile := condition "\" OR \"1?" [.null, "?) OR (TRUE", .null] "$1"
    let text := "((\"users\".\"city\" = $1) OR ((\"users\".\"name\" IN ($2) OR " ++
      "\"users\".\"name\" IS NULL) AND \"users\".\"created_at\" < $3::timestamptz))"
    plain.SameForm hostile ∧
      (whereClause none Samples.users plain).toOption = some ⟨text, ["Oulu", "Ada", .null]⟩ ∧
      whereClause none Samples.users hostile =
        .ok ⟨text, ["\" OR \"1?", "?) OR (TRUE", "$1"]⟩ := by
  intro condition plain hostile text
  have same : plain.SameForm hostile :=
    .any (.cons (.leaf _ (.equals rfl)) (.cons (.all (.cons (.leaf _ (.oneOf rfl rfl))
      (.cons (.leaf _ (.before _ _)) .nil))) .nil))
  have written : (whereClause none Samples.users plain).toOption =
      some ⟨text, ["Oulu", "Ada", .null]⟩ := by decide +kernel
  have parameters : hostile.parameters =
      [.text "\" OR \"1?", .text "?) OR (TRUE", .text "$1"] := by decide
  refine ⟨same, written, ?_⟩
  rcases whereClause_sameForm none Samples.users plain hostile same with
    ⟨error, failed, -⟩ | ⟨one, other, first, second, texts, -, -, values⟩
  · rw [failed] at written
    cases written
  · rw [first] at written
    have known : one.text = text := congrArg Fragment.text (Option.some.inj written)
    rw [second, ← known, texts, ← parameters, ← values]

end Sql

end EntityStore

import EntityStore.Proofs.Sql.Tests
import EntityStore.Samples

/-!
Conditions keep their meaning in SQL.

Each term of a chain means a truth value of its own, and the chain means what its
connective makes of them (`Chain.and_means`, `Chain.or_means`).  Building a
condition adds terms that all hold exactly if the condition accepts the entity
(`build_means`); so the finished text, read as SQL, is true in exactly those rows
whose entities the condition accepts (`whereClause_eval`).
-/

namespace EntityStore

/-! ## The entity of a row -/

/-- The entity that holds every declared property with the value of its column. -/
def Metadata.entityOf (m : Metadata) (row : String → Value) : Entity :=
  m.fields.foldl (fun e field => e.set field.property (row field.column)) (.ofTable m.table)

theorem Entity.get?_foldl_set (row : String → Value) {fields : List Field} {field : Field}
    (distinct : (fields.map (·.property)).Nodup) (member : field ∈ fields) :
    ∀ e : Entity, (fields.foldl (fun e field => e.set field.property (row field.column))
      e).get? field.property = some (row field.column) := by
  have others : ∀ {fields : List Field} {property : String},
      property ∉ fields.map (·.property) → ∀ e : Entity,
        (fields.foldl (fun e field => e.set field.property (row field.column)) e).get? property =
          e.get? property := by
    intro fields property
    induction fields with
    | nil => exact fun _ _ => rfl
    | cons first rest ih =>
        intro absent e
        rw [List.map_cons, List.mem_cons, not_or] at absent
        rw [List.foldl_cons, ih absent.2, get?_set, if_neg absent.1]
  induction fields with
  | nil => cases member
  | cons first rest ih =>
      intro e
      rw [List.map_cons, List.nodup_cons] at distinct
      rw [List.foldl_cons]
      rcases List.mem_cons.mp member with rfl | member
      · rw [others distinct.1, get?_set, if_pos rfl]
      · exact ih distinct.2 member _

theorem Metadata.get?_entityOf {m : Metadata} (valid : m.validate = .ok ())
    (row : String → Value) {field : Field} (member : field ∈ m.fields) :
    (m.entityOf row).get? field.property = some (row field.column) :=
  Entity.get?_foldl_set row (nodup_of_validate valid) member _

namespace Sql

/-! ## Chains -/

theorem Chain.fragment_singleton (connective : Connective) (term : Fragment) :
    (Chain.mk connective [term]).fragment = term := by
  simp [Chain.fragment, Chain.text, Chain.values]

theorem Chain.fragment_cons_cons (connective : Connective) (first second : Fragment)
    (rest : List Fragment) :
    (Chain.mk connective (first :: second :: rest)).fragment =
      ⟨first.text ++ connective.separator ++ (Chain.mk connective (second :: rest)).fragment.text,
        first.values ++ (Chain.mk connective (second :: rest)).fragment.values⟩ := by
  simp [Chain.fragment, Chain.text, Chain.values, String.intercalate_cons_cons]

section Chains

variable {row : String → Value} {terms : List (Fragment × Bool)}

/-- An `AND` chain holds where all its terms do. -/
theorem Chain.and_means (means : ∀ t ∈ terms, t.1.Means row .term t.2) :
    (Chain.mk .and (terms.map Prod.fst)).fragment.Means row .conjunction
      (terms.all Prod.snd) := by
  induction terms with
  | nil => exact (Fragment.Means.truth true).conjunction
  | cons first rest ih =>
      have firstMeans := means first List.mem_cons_self
      have restMeans := ih fun t member => means t (List.mem_cons_of_mem _ member)
      cases rest with
      | nil =>
          rw [List.map_singleton, fragment_singleton, List.all_cons, List.all_nil, Bool.and_true]
          exact firstMeans.conjunction
      | cons second rest =>
          rw [List.map_cons, List.map_cons, fragment_cons_cons]
          exact firstMeans.and restMeans

/-- An `OR` chain holds where some of its terms does. -/
theorem Chain.or_means (means : ∀ t ∈ terms, t.1.Means row .term t.2) :
    (Chain.mk .or (terms.map Prod.fst)).fragment.Means row .disjunction
      (terms.any Prod.snd) := by
  induction terms with
  | nil => exact (Fragment.Means.truth false).conjunction.disjunction
  | cons first rest ih =>
      have firstMeans := means first List.mem_cons_self
      have restMeans := ih fun t member => means t (List.mem_cons_of_mem _ member)
      cases rest with
      | nil =>
          rw [List.map_singleton, fragment_singleton, List.any_cons, List.any_nil, Bool.or_false]
          exact firstMeans.conjunction.disjunction
      | cons second rest =>
          rw [List.map_cons, List.map_cons, fragment_cons_cons]
          exact firstMeans.conjunction.or restMeans

end Chains

/-! ## Building -/

/-- The scope has a column for the property of a test, and the entity holds the
property with the value of that column. -/
def Scope.Reflects (scope : Scope) (row : String → Value) (e : Entity)
    (test : PropertyTest) : Prop :=
  ∃ field, scope.fields.find? (·.property == test.property) = some field ∧
    e.get? test.property = some (row field.column)

section Building

variable {scope : Scope} {row : String → Value} {e : Entity}

theorem resolve_means {test : PropertyTest} (reflects : scope.Reflects row e test) :
    ∃ resolved, scope.resolve test = .ok resolved ∧
      resolved.fragment.Means row .term (test.holds e) := by
  obtain ⟨field, found, holds⟩ := reflects
  refine ⟨⟨scope.table, field.column, test.predicate,
    scope.temporals.any (·.property == test.property)⟩, ?_, ?_⟩
  · unfold Scope.resolve
    rw [found]
  · unfold PropertyTest.holds
    rw [holds]
    exact ColumnTest.fragment_means _ row

/-- The chain with the terms of some pairs added. -/
def Chain.pushAll (chain : Chain) (terms : List (Fragment × Bool)) : Chain :=
  { chain with terms := chain.terms ++ terms.map Prod.fst }

theorem Chain.pushAll_pushAll (chain : Chain) (terms terms' : List (Fragment × Bool)) :
    (chain.pushAll terms).pushAll terms' = chain.pushAll (terms ++ terms') := by
  simp [Chain.pushAll]

mutual

/-- Building a condition adds terms that all hold exactly if the condition accepts
the entity; a group of any adds a single term. -/
theorem build_means : ∀ (condition : Condition) (chain : Chain),
    (∀ test ∈ condition.tests, scope.Reflects row e test) →
    ∃ terms : List (Fragment × Bool),
      chains.build scope condition chain () = (.ok (), chain.pushAll terms, ()) ∧
      (∀ t ∈ terms, t.1.Means row .term t.2) ∧
      terms.all Prod.snd = condition.accepts e ∧
      (condition.isAny = true → terms.any Prod.snd = condition.accepts e)
  | .leaf test, chain => by
      intro reflects
      obtain ⟨resolved, ok, means⟩ := resolve_means (reflects test (List.mem_singleton_self _))
      refine ⟨[(resolved.fragment, test.holds e)], ?_, ?_, ?_, nofun⟩
      · rw [Backend.build, ok]
        rfl
      · intro t member
        rw [List.mem_singleton.mp member]
        exact means
      · exact Bool.and_true _
  | .all members, chain => by
      intro reflects
      obtain ⟨terms, built, means, holds⟩ := buildAll_means members chain reflects
      exact ⟨terms, built, means, holds, nofun⟩
  | .any members, chain => by
      intro reflects
      obtain ⟨terms, built, means, holds⟩ :=
        buildAlternatives_means members (Chain.empty .or) reflects
      have alternatives := (Chain.or_means means).grouped
      rw [holds] at alternatives
      refine ⟨[((Chain.mk .or (terms.map Prod.fst)).fragment.grouped,
        Condition.acceptsAny members e)], ?_, ?_, ?_, ?_⟩
      · have created : chains.create .or () = (Chain.empty .or, ()) := rfl
        rw [Backend.build, created]
        simp only [built]
        rfl
      · intro t member
        rw [List.mem_singleton.mp member]
        exact alternatives
      -- With a single term it makes no difference which connective the chain has.
      · exact Bool.and_true _
      · exact fun _ => Bool.or_false _

theorem buildAll_means : ∀ (members : List Condition) (chain : Chain),
    (∀ test ∈ Condition.testsOfAll members, scope.Reflects row e test) →
    ∃ terms : List (Fragment × Bool),
      chains.buildAll scope members chain () = (.ok (), chain.pushAll terms, ()) ∧
      (∀ t ∈ terms, t.1.Means row .term t.2) ∧
      terms.all Prod.snd = Condition.acceptsAll members e
  | [], chain => by
      intro _
      refine ⟨[], ?_, nofun, rfl⟩
      simp [Backend.buildAll, Chain.pushAll]
  | member :: members, chain => by
      intro reflects
      obtain ⟨terms, built, means, holds, -⟩ := build_means member chain
        fun test isTest => reflects test (List.mem_append_left _ isTest)
      obtain ⟨terms', built', means', holds'⟩ := buildAll_means members (chain.pushAll terms)
        fun test isTest => reflects test (List.mem_append_right _ isTest)
      refine ⟨terms ++ terms', ?_, ?_, ?_⟩
      · rw [Backend.buildAll, built]
        exact built'.trans (by rw [Chain.pushAll_pushAll])
      · intro t isTerm
        rcases List.mem_append.mp isTerm with isTerm | isTerm
        · exact means t isTerm
        · exact means' t isTerm
      · rw [List.all_append, holds, holds']
        rfl

/-- Building alternatives adds terms of which some holds exactly if some of the
conditions accepts the entity. -/
theorem buildAlternatives_means : ∀ (members : List Condition) (chain : Chain),
    (∀ test ∈ Condition.testsOfAll members, scope.Reflects row e test) →
    ∃ terms : List (Fragment × Bool),
      chains.buildAlternatives scope members chain () = (.ok (), chain.pushAll terms, ()) ∧
      (∀ t ∈ terms, t.1.Means row .term t.2) ∧
      terms.any Prod.snd = Condition.acceptsAny members e
  | [], chain => by
      intro _
      refine ⟨[], ?_, nofun, rfl⟩
      simp [Backend.buildAlternatives, Chain.pushAll]
  | member :: members, chain => by
      intro reflects
      have reflectsMember : ∀ test ∈ member.tests, scope.Reflects row e test :=
        fun test isTest => reflects test (List.mem_append_left _ isTest)
      have reflectsMembers : ∀ test ∈ Condition.testsOfAll members, scope.Reflects row e test :=
        fun test isTest => reflects test (List.mem_append_right _ isTest)
      rw [Backend.buildAlternatives]
      split
      -- A group of any goes to the alternatives at hand, whose terms are joined by `OR`.
      · rename_i isAny
        obtain ⟨terms, built, means, -, holds⟩ := build_means member chain reflectsMember
        obtain ⟨terms', built', means', holds'⟩ :=
          buildAlternatives_means members (chain.pushAll terms) reflectsMembers
        refine ⟨terms ++ terms', ?_, ?_, ?_⟩
        · rw [built]
          exact built'.trans (by rw [Chain.pushAll_pushAll])
        · intro t isTerm
          rcases List.mem_append.mp isTerm with isTerm | isTerm
          · exact means t isTerm
          · exact means' t isTerm
        · rw [List.any_append, holds isAny, holds']
          rfl
      · obtain ⟨terms, built, means, holds, -⟩ :=
          build_means member (Chain.empty .and) reflectsMember
        have own := (Chain.and_means means).disjunction.grouped
        rw [holds] at own
        let term := (Chain.mk .and (terms.map Prod.fst)).fragment.grouped
        obtain ⟨terms', built', means', holds'⟩ :=
          buildAlternatives_means members (chain.pushAll [(term, member.accepts e)]) reflectsMembers
        refine ⟨(term, member.accepts e) :: terms', ?_, ?_, ?_⟩
        · have created : chains.create .and () = (Chain.empty .and, ()) := rfl
          rw [created]
          simp only [built]
          exact built'.trans (by rw [Chain.pushAll_pushAll]; rfl)
        · intro t isTerm
          rcases List.mem_cons.mp isTerm with rfl | isTerm
          · exact own
          · exact means' t isTerm
        · rw [List.any_cons, holds']
          rfl

end

end Building

/-! ## Finished text -/

/-- What a fragment means as a disjunction is what its finished text evaluates to. -/
theorem Fragment.Means.eval_numbered {row : String → Value} {f : Fragment} {holds : Bool}
    (means : f.Means row .disjunction holds) :
    ∃ expr, parse f.numbered.text = some expr ∧
      (expr.eval row f.numbered.values = some true ↔ holds = true) := by
  obtain ⟨text, expr, scans, reads, eval⟩ := means [] []
  have scanned : tokens f.numbered.text = text := by
    have ended := scans [] .nil
    have numbered : f.numbered.text.toList = numberFrom false 1 f.text.toList :=
      String.toList_ofList
    rw [List.append_nil] at ended
    unfold tokens
    rw [numbered]
    exact ended.trans (List.append_nil text)
  have read : readDisjunction (3 * text.length + 2) text = some (expr, []) := by
    have whole := reads (3 * text.length + 2) [] (Nat.le_refl _) nofun
    rwa [List.append_nil] at whole
  refine ⟨expr, ?_, ?_⟩
  · unfold parse
    rw [scanned, read]
  · rw [List.append_nil] at eval
    exact eval

/-- For every condition on declared properties there is a text, which is true, read
as SQL, in exactly those rows whose entities the condition accepts. -/
theorem whereClause_eval (schema : Option String) (m : Metadata) (condition : Condition)
    (row : String → Value) (valid : m.validate = .ok ())
    (declared : ∀ test ∈ condition.tests, test.property ∈ m.fields.map (·.property)) :
    ∃ (fragment : Fragment) (expr : Expr),
      whereClause schema m condition = .ok fragment ∧ parse fragment.text = some expr ∧
        (expr.eval row fragment.values = some true ↔
          condition.accepts (m.entityOf row) = true) := by
  have reflects : ∀ test ∈ condition.tests,
      (Scope.ofMetadata schema m).Reflects row (m.entityOf row) test := by
    intro test isTest
    obtain ⟨field, member, same⟩ := List.mem_map.mp (declared test isTest)
    have some : (m.fields.find? (·.property == test.property)).isSome = true :=
      List.find?_isSome.mpr ⟨field, member, by simpa using same⟩
    obtain ⟨first, found⟩ := Option.isSome_iff_exists.mp some
    have named : first.property = test.property := by simpa using List.find?_some found
    refine ⟨first, found, ?_⟩
    rw [← named]
    exact Metadata.get?_entityOf valid row (List.mem_of_find?_eq_some found)
  obtain ⟨terms, built, means, holds, -⟩ :=
    build_means condition (Chain.empty .and) reflects
  have whole := (Chain.and_means means).disjunction
  rw [holds] at whole
  obtain ⟨expr, parsed, eval⟩ := whole.eval_numbered
  refine ⟨(Chain.mk .and (terms.map Prod.fst)).build, expr, ?_, parsed, eval⟩
  unfold whereClause Chain.addCondition
  rw [built]
  rfl

/-- A user in his thirties whose city is known is found by his age. -/
theorem whereClause_eval_samples :
    let condition : Condition := .any [.propertyIsNull "city",
      .all [.propertyBetween "age" (30 : Int64) (39 : Int64), .propertyIn "name" ["Ada", .null]]]
    let row (column : String) : Value := if column = "age" then (36 : Int64) else "Ada"
    ∃ (fragment : Fragment) (expr : Expr),
      whereClause (some "shop") Samples.users condition = .ok fragment ∧
        parse fragment.text = some expr ∧ expr.eval row fragment.values = some true := by
  intro condition row
  have valid : Samples.users.validate = .ok () := by rfl
  have declared : ∀ test ∈ condition.tests,
      test.property ∈ Samples.users.fields.map (·.property) := by decide
  have accepted : condition.accepts (Samples.users.entityOf row) = true := by rfl
  obtain ⟨fragment, expr, built, parsed, eval⟩ :=
    whereClause_eval (some "shop") Samples.users condition row valid declared
  exact ⟨fragment, expr, built, parsed, eval.mpr accepted⟩

end Sql

end EntityStore

import EntityStore.Proofs.Sql.Bench
import EntityStore.Proofs.Sql.Conditions
import EntityStore.Proofs.Sql.Markers

/-!
Markers and parameters in step.

A fragment is aligned when its quotes are balanced and it has as many markers as
parameters.  Aligned fragments can be put behind each other, and every piece that
builders are made of is aligned, whatever the names of tables and columns contain.
So every term of every builder stays aligned in every run on a bench
(`Bench.run_aligned`), and finishing a chain or an aggregate gives each term the
numbers of its own parameters (`Bench.finished_in_step`).
-/

namespace EntityStore.Sql

/-- The quotes are balanced and each marker has its parameter. -/
structure Fragment.Aligned (f : Fragment) : Prop where
  balanced : Balanced f.text.toList
  counted : markers f.text.toList = f.values.length

instance (f : Fragment) : Decidable f.Aligned :=
  decidable_of_iff (Balanced f.text.toList ∧ markers f.text.toList = f.values.length)
    ⟨fun both => ⟨both.1, both.2⟩, fun aligned => ⟨aligned.balanced, aligned.counted⟩⟩

/-! ## Quoted names -/

theorem count_doubleQuotes (name : List Char) :
    (doubleQuotes name).count '"' = 2 * name.count '"' := by
  induction name with
  | nil => rfl
  | cons c name ih =>
      rw [doubleQuotes]
      by_cases quote : c = '"'
      · rw [if_pos quote, quote]
        simp only [List.count_cons_self, ih]
        omega
      · rw [if_neg quote, List.count_cons_of_ne quote, List.count_cons_of_ne quote, ih]

/-- Inside quotes there are no markers, whatever the name contains. -/
theorem markers_doubleQuotes (name : List Char) :
    ∀ {start : List Char}, ¬Balanced start →
      markers (start ++ doubleQuotes name) = markers start := by
  induction name with
  | nil => simp [doubleQuotes]
  | cons c name ih =>
      intro start opened
      have unmarked : markers (start ++ [c]) = markers start := by
        rw [markers_concat, if_neg fun both => opened both.2, Nat.add_zero]
      rw [doubleQuotes]
      by_cases quote : c = '"'
      -- The first of the two quotes seems to close the name; the second opens it again.
      · subst quote
        have closed : Balanced (start ++ ['"']) := (balanced_concat start '"').mpr opened
        have reopened : ¬Balanced (start ++ ['"'] ++ ['"']) := by
          rw [balanced_concat]
          exact not_not_intro closed
        have others := ih reopened
        rw [markers_concat, unmarked] at others
        simpa using others
      · have stillOpen : ¬Balanced (start ++ [c]) := by
          rw [balanced_concat, if_neg quote]
          exact opened
        have others := ih stillOpen
        rw [unmarked] at others
        simpa [quote] using others

theorem balanced_quotedChars (name : List Char) : Balanced (quotedChars name) := by
  unfold Balanced quotedChars
  rw [List.count_cons_self, List.count_append, count_doubleQuotes, List.count_singleton_self]
  omega

theorem markers_quotedChars (name : List Char) : markers (quotedChars name) = 0 := by
  have opened : ¬Balanced ['"'] := by decide
  have inside := markers_doubleQuotes name opened
  have split : quotedChars name = ['"'] ++ doubleQuotes name ++ ['"'] := rfl
  rw [split, markers_concat, inside]
  rfl

/-! ## Aligned pieces -/

namespace Fragment.Aligned

variable {first second : Fragment}

/-- Text without parameters, and without quotes and question marks. -/
theorem of_isPlain (text : String) (plain : isPlain text.toList = true) :
    (Fragment.mk text []).Aligned := by
  have quotes : text.toList.count '"' = 0 := by
    apply List.count_eq_zero.mpr
    intro member
    have both := List.all_eq_true.mp plain '"' member
    simp at both
  have none : ∀ i ∈ List.range text.toList.length, ¬decide (MarkerAt text.toList i) = true := by
    intro i _ marker
    have member := List.mem_of_getElem? (of_decide_eq_true marker).1
    have both := List.all_eq_true.mp plain '?' member
    simp at both
  exact ⟨by unfold Balanced; rw [quotes], List.countP_eq_zero.mpr none⟩

theorem identifier (name : String) : (Fragment.mk (quoteIdentifier name) []).Aligned := by
  unfold quoteIdentifier
  constructor
  · rw [String.toList_ofList]
    exact balanced_quotedChars name.toList
  · rw [String.toList_ofList]
    exact markers_quotedChars name.toList

/-- Fragments behind each other, with their parameters in the same order. -/
theorem append (aligned : first.Aligned) (alignedSecond : second.Aligned) :
    (Fragment.mk (first.text ++ second.text) (first.values ++ second.values)).Aligned := by
  constructor
  · rw [String.toList_append]
    exact balanced_append aligned.balanced alignedSecond.balanced
  · rw [String.toList_append, markers_append aligned.balanced, aligned.counted,
      alignedSecond.counted, List.length_append]

/-- Fragments with plain text between them. -/
theorem join (aligned : first.Aligned) (separator : String)
    (plain : isPlain separator.toList = true) (alignedSecond : second.Aligned) :
    (Fragment.mk (first.text ++ separator ++ second.text)
      (first.values ++ second.values)).Aligned := by
  have joined := (aligned.append (of_isPlain separator plain)).append alignedSecond
  simpa using joined

/-- Plain text in front of a fragment and behind it. -/
theorem enclose (aligned : first.Aligned) (opening closing : String)
    (plainOpening : isPlain opening.toList = true)
    (plainClosing : isPlain closing.toList = true) :
    (Fragment.mk (opening ++ first.text ++ closing) first.values).Aligned := by
  have opened := (of_isPlain opening plainOpening).append aligned
  have enclosed := opened.append (of_isPlain closing plainClosing)
  simpa using enclosed

theorem grouped (aligned : first.Aligned) : first.grouped.Aligned :=
  aligned.enclose "(" ")" (by decide) (by decide)

/-- Fragments of one kind, one after the other. -/
theorem intercalate (separator : String) (plain : isPlain separator.toList = true)
    {parts : List Fragment} (aligned : ∀ part ∈ parts, part.Aligned) :
    (Fragment.mk (separator.intercalate (parts.map (·.text)))
      (parts.flatMap (·.values))).Aligned := by
  induction parts with
  | nil => exact of_isPlain "" rfl
  | cons first rest ih =>
      have alignedFirst := aligned first List.mem_cons_self
      have alignedRest := ih fun part member => aligned part (List.mem_cons_of_mem _ member)
      cases rest with
      | nil => simpa using alignedFirst
      | cons second rest =>
          have joined := alignedFirst.join separator plain alignedRest
          simpa [String.intercalate_cons_cons] using joined

end Fragment.Aligned

/-! ## Tables and columns -/

theorem aligned_quoteTable (table : String) : (Fragment.mk (quoteTable table) []).Aligned := by
  unfold quoteTable
  generalize dottedParts table.toList = parts
  let names := parts.map fun part => Fragment.mk (quoteIdentifier (String.ofList part)) []
  have aligned : ∀ name ∈ names, name.Aligned := by
    intro name member
    rcases List.mem_map.mp member with ⟨part, _, rfl⟩
    exact .identifier _
  have joined := Fragment.Aligned.intercalate "." (by decide) aligned
  have values : names.flatMap (·.values) = [] := by simp [names]
  rw [values] at joined
  simpa [names, Function.comp_def] using joined

theorem aligned_quoteColumn (table column : String) :
    (Fragment.mk (quoteColumn table column) []).Aligned := by
  unfold quoteColumn
  split
  · exact .identifier column
  · have joined := (aligned_quoteTable table).join "." (by decide)
      (Fragment.Aligned.identifier column)
    exact joined

namespace ColumnTest

variable (t : ColumnTest)

theorem aligned_columnText : (Fragment.mk t.columnText []).Aligned :=
  aligned_quoteColumn t.table t.column

theorem aligned_marker (value : Value) : (Fragment.mk t.marker [value]).Aligned := by
  have single : (Fragment.mk "?" [value]).Aligned :=
    ⟨show Balanced "?".toList by decide, show markers "?".toList = 1 by decide⟩
  unfold marker
  split
  · exact single.append (.of_isPlain "::timestamptz" (by decide))
  · exact single

theorem aligned_nullCheck : t.nullCheck.Aligned :=
  t.aligned_columnText.append (.of_isPlain " IS NULL" (by decide))

theorem aligned_comparison {operator : String} (operand : Value)
    (plain : isPlain (" " ++ operator ++ " ").toList = true) :
    (t.comparison operator operand).Aligned := by
  have joined := t.aligned_columnText.join _ plain (t.aligned_marker operand)
  simpa [comparison, String.append_assoc] using joined

/-- The markers of a list of operands. -/
theorem aligned_markers (operands : List Value) :
    (Fragment.mk (", ".intercalate (List.replicate operands.length t.marker))
      operands).Aligned := by
  let parts := operands.map fun operand => Fragment.mk t.marker [operand]
  have aligned : ∀ part ∈ parts, part.Aligned := by
    intro part member
    rcases List.mem_map.mp member with ⟨operand, _, rfl⟩
    exact t.aligned_marker operand
  have joined := Fragment.Aligned.intercalate ", " (by decide) aligned
  have texts : parts.map (·.text) = List.replicate operands.length t.marker := by
    simp [parts, Function.comp_def, List.map_const']
  have values : parts.flatMap (·.values) = operands := by
    simp [parts, List.flatMap_map]
  rwa [texts, values] at joined

theorem aligned_membership (operands : List Value) : (t.membership operands).Aligned := by
  unfold membership
  generalize operands.filter (fun operand => !operand.isNull) = present
  have list := (t.aligned_columnText.join " IN (" (by decide)
    (t.aligned_markers present)).append (.of_isPlain ")" (by decide))
  simp only
  split
  · split
    · exact t.aligned_nullCheck
    · exact .of_isPlain "FALSE" (by decide)
  · split
    · have alternatives := (list.join " OR " (by decide)
        t.aligned_nullCheck).enclose "(" ")" (by decide) (by decide)
      simpa [nullCheck, String.append_assoc] using alternatives
    · simpa [String.append_assoc] using list

/-- A test is aligned, whatever its table and column are called. -/
theorem aligned_fragment : t.fragment.Aligned := by
  unfold fragment
  split
  · split
    · exact t.aligned_nullCheck
    · exact t.aligned_comparison _ (by decide)
  · exact t.aligned_comparison _ (by decide)
  · exact t.aligned_comparison _ (by decide)
  · rename_i first last _
    have limits := (t.aligned_marker first).join " AND " (by decide)
      (t.aligned_marker last)
    have between := t.aligned_columnText.join " BETWEEN " (by decide) limits
    simpa [String.append_assoc] using between
  · exact t.aligned_membership _
  · exact t.aligned_nullCheck
  · exact t.aligned_columnText.append (.of_isPlain " IS NOT NULL" (by decide))

end ColumnTest

theorem ColumnReference.aligned_fragment (r : ColumnReference) : r.fragment.Aligned := by
  unfold fragment
  split
  · exact aligned_quoteColumn _ _
  · exact (aligned_quoteTable r.table).append (.of_isPlain ".*" (by decide))

/-! ## Builders -/

theorem Chain.aligned_fragment {c : Chain} (aligned : ∀ term ∈ c.terms, term.Aligned) :
    c.fragment.Aligned := by
  rcases c with ⟨connective, terms⟩
  unfold fragment text values
  by_cases none : terms = []
  · subst none
    cases connective with
    | and => exact .of_isPlain "TRUE" (by decide)
    | or => exact .of_isPlain "FALSE" (by decide)
  · have plain : isPlain connective.separator.toList = true := by
      cases connective <;> decide
    have joined := Fragment.Aligned.intercalate _ plain aligned
    simpa [none] using joined

theorem Aggregate.isPlain_opening (a : Aggregate) :
    isPlain (a.function.sqlName ++ "(" ++ if a.distinct then "DISTINCT " else "").toList =
      true := by
  generalize a.function = function
  generalize a.distinct = distinct
  cases function <;> cases distinct <;> decide

theorem Aggregate.aligned_fragment {a : Aggregate} (aligned : a.formula.Aligned) :
    a.fragment.Aligned :=
  aligned.enclose _ ")" a.isPlain_opening (by decide)

/-- The terms of a chain stand one after the other in its text. -/
theorem Chain.exists_split (connective : Connective) (term : Fragment) (after : List Fragment)
    {before : List Fragment} (aligned : ∀ t ∈ before, t.Aligned) :
    ∃ left right : String,
      (Chain.mk connective (before ++ term :: after)).fragment.text = left ++ term.text ++ right ∧
        (Fragment.mk left (before.flatMap (·.values))).Aligned := by
  induction before with
  | nil =>
      have empty : (Fragment.mk "" []).Aligned := .of_isPlain "" (by decide)
      cases after with
      | nil => exact ⟨"", "", by simp [fragment_singleton], empty⟩
      | cons second rest =>
          refine ⟨"", connective.separator ++ (Chain.mk connective (second :: rest)).fragment.text,
            ?_, empty⟩
          simp [fragment_cons_cons, String.append_assoc]
  | cons first before ih =>
      rcases ih fun t member => aligned t (List.mem_cons_of_mem _ member) with
        ⟨left, right, text, alignedLeft⟩
      have plain : isPlain connective.separator.toList = true := by
        cases connective <;> decide
      have joined := (aligned first List.mem_cons_self).join _ plain alignedLeft
      have some : before ++ term :: after ≠ [] := by simp
      rcases List.exists_cons_of_ne_nil some with ⟨second, others, same⟩
      refine ⟨first.text ++ connective.separator ++ left, right, ?_, joined⟩
      rw [same] at text
      rw [List.cons_append, same, fragment_cons_cons, text]
      simp only [String.append_assoc]

namespace Builder

/-- Every term of the builder is aligned. -/
def Aligned (builder : Builder) : Prop := ∀ term ∈ builder.terms, term.Aligned

variable {builder : Builder}

theorem Aligned.toFragment (aligned : builder.Aligned) : builder.toFragment.Aligned := by
  cases builder with
  | chain c => exact Chain.aligned_fragment aligned
  | column r => exact r.aligned_fragment
  | fragment f => exact aligned f (List.mem_singleton_self f)
  | aggregate a => exact Aggregate.aligned_fragment (aligned a.formula (List.mem_singleton_self _))

/-- A term stands in the text behind the parameters of the terms before it. -/
theorem Aligned.exists_split (aligned : builder.Aligned) {before after : List Fragment}
    {term : Fragment} (terms : builder.terms = before ++ term :: after)
    (numbers : builder.numbersMarkers = true) :
    ∃ left right : String, builder.toFragment.text = left ++ term.text ++ right ∧
      (Fragment.mk left (before.flatMap (·.values))).Aligned ∧
      builder.toFragment.values =
        before.flatMap (·.values) ++ term.values ++ after.flatMap (·.values) := by
  cases builder with
  | chain c =>
      rcases c with ⟨connective, all⟩
      change all = before ++ term :: after at terms
      subst terms
      have alignedBefore : ∀ t ∈ before, t.Aligned :=
        fun t member => aligned t (List.mem_append_left _ member)
      rcases Chain.exists_split connective term after alignedBefore with
        ⟨left, right, text, alignedLeft⟩
      refine ⟨left, right, text, alignedLeft, ?_⟩
      simp [Builder.toFragment, Chain.fragment, Chain.values]
  | column r => cases numbers
  | fragment f => cases numbers
  | aggregate a =>
      have single : before = [] ∧ a.formula = term ∧ after = [] := by
        cases before with
        | nil => simpa [Builder.terms] using terms
        | cons first rest => simp [Builder.terms] at terms
      rcases single with ⟨rfl, rfl, rfl⟩
      exact ⟨_, ")", rfl, .of_isPlain _ a.isPlain_opening, by
        simp [Builder.toFragment, Aggregate.fragment]⟩

theorem build_of_numbersMarkers (numbers : builder.numbersMarkers = true) :
    builder.build = builder.toFragment.numbered := by
  cases builder with
  | chain c => rfl
  | column r => cases numbers
  | fragment f => cases numbers
  | aggregate a => rfl

end Builder

/-! ## Runs -/

namespace Bench

variable {bench : Bench}

/-- Every builder on the bench is aligned. -/
def Aligned (bench : Bench) : Prop :=
  ∀ name builder, bench.builder? name = some builder → builder.Aligned

theorem aligned_empty : empty.Aligned := nofun

theorem Aligned.put (aligned : bench.Aligned) (name : String) {builder : Builder}
    (alignedBuilder : builder.Aligned) : (bench.put name builder).Aligned := by
  intro name' builder' found
  rw [builder?_put] at found
  split at found
  · cases found
    exact alignedBuilder
  · exact aligned name' builder' found

/-- A chain stays aligned when an aligned term is added. -/
theorem Aligned.push (aligned : bench.Aligned) {name : String} {c : Chain}
    (found : bench.builder? name = some (.chain c)) {term : Fragment} (alignedTerm : term.Aligned) :
    (bench.put name (.chain (c.push term))).Aligned := by
  apply aligned.put
  intro other member
  rcases List.mem_append.mp member with old | new
  · exact aligned name _ found other old
  · rw [List.mem_singleton.mp new]
    exact alignedTerm

theorem Aligned.putOne (aligned : bench.Aligned) (name : String) {builder : Builder} {f : Fragment}
    (terms : builder.terms = [f]) (alignedTerm : f.Aligned) :
    (bench.put name builder).Aligned := by
  apply aligned.put
  intro other member
  rw [terms] at member
  rw [List.mem_singleton.mp member]
  exact alignedTerm

theorem step_aligned (aligned : bench.Aligned) {step : BenchStep}
    (given : ∀ name f, step = .fragment name f → f.Aligned) : (bench.step step).Aligned := by
  cases step with
  | chain name connective => exact aligned.put name nofun
  | column name reference => exact aligned.put name nofun
  | fragment name f => exact aligned.putOne name rfl (given name f rfl)
  | capture name source =>
      rw [Bench.step]
      split
      · rename_i builder found
        exact aligned.putOne name rfl (aligned source builder found).toFragment
      · exact aligned
  | aggregate name function distinct source =>
      rw [Bench.step]
      split
      · rename_i builder found
        exact aligned.putOne name rfl (aligned source builder found).toFragment
      · exact aligned
  | setFormula name source =>
      rw [Bench.step]
      split
      · rename_i builder _ found
        exact aligned.putOne name rfl (aligned source builder found).toFragment
      · exact aligned
  | set name test =>
      rw [Bench.step]
      split
      · rename_i c found
        exact aligned.push found test.aligned_fragment
      · exact aligned
  | attach name source =>
      rw [Bench.step]
      split
      · rename_i c builder found foundSource
        exact aligned.push found (aligned source builder foundSource).toFragment.grouped
      · exact aligned

/-- Every term of every builder stays aligned, given aligned fragments. -/
theorem run_aligned (aligned : bench.Aligned) {steps : List BenchStep}
    (given : ∀ name f, .fragment name f ∈ steps → f.Aligned) : (bench.run steps).Aligned := by
  induction steps generalizing bench with
  | nil => exact aligned
  | cons step steps ih =>
      apply ih
      · apply step_aligned aligned
        rintro name f rfl
        exact given name f List.mem_cons_self
      · exact fun name f member => given name f (List.mem_cons_of_mem _ member)

/-- After every run on a bench, in which fragments from outside are aligned, each
term of a builder has balanced quotes and as many markers as parameters.  A chain
or an aggregate is finished by replacing its k-th marker by `$k`, and the numbers
inside a term are the places of its own parameters among all. -/
theorem finished_in_step (steps : List BenchStep)
    (given : ∀ name f, .fragment name f ∈ steps → f.Aligned) (name : String) (builder : Builder)
    (found : (empty.run steps).builder? name = some builder) :
    (∀ term ∈ builder.terms,
        Balanced term.text.toList ∧ markers term.text.toList = term.values.length) ∧
      (builder.numbersMarkers = true →
        builder.build.text.toList = finishedFrom 0 builder.toFragment.text.toList ∧
        markers builder.toFragment.text.toList = builder.build.values.length ∧
        ∀ before term after, builder.terms = before ++ term :: after →
          let ahead := before.flatMap (·.values)
          builder.build.values = ahead ++ term.values ++ after.flatMap (·.values) ∧
          ∃ left right : String, builder.toFragment.text = left ++ term.text ++ right ∧
            builder.build.text.toList = finishedFrom 0 left.toList ++
              finishedFrom ahead.length term.text.toList ++
              finishedFrom (ahead.length + term.values.length) right.toList) := by
  have aligned : builder.Aligned := run_aligned aligned_empty given name builder found
  constructor
  · exact fun term member => ⟨(aligned term member).balanced, (aligned term member).counted⟩
  · intro numbers
    have finished := Builder.build_of_numbersMarkers numbers
    have text : builder.build.text.toList = finishedFrom 0 builder.toFragment.text.toList := by
      rw [finished]
      exact toList_numberPlaceholders _
    have values : builder.build.values = builder.toFragment.values := by
      rw [finished]
      rfl
    refine ⟨text, ?_, ?_⟩
    · rw [values]
      exact aligned.toFragment.counted
    · intro before term after terms
      rcases aligned.exists_split terms numbers with ⟨left, right, split, alignedLeft, parameters⟩
      have alignedTerm : term.Aligned := by
        apply aligned
        rw [terms]
        exact List.mem_append_right _ List.mem_cons_self
      have both := balanced_append alignedLeft.balanced alignedTerm.balanced
      have counted : markers (left.toList ++ term.text.toList) =
          (before.flatMap (·.values)).length + term.values.length := by
        rw [markers_append alignedLeft.balanced, alignedLeft.counted, alignedTerm.counted]
      refine ⟨values.trans parameters, left, right, split, ?_⟩
      rw [text, split, String.toList_append, String.toList_append, finishedFrom_append both,
        finishedFrom_append alignedLeft.balanced, counted, alignedLeft.counted, Nat.zero_add,
        Nat.zero_add]

/-- Names with quotes and question marks, a list with a null, and a chain that is
attached to itself and wrapped by an aggregate. -/
def hostileSteps : List BenchStep :=
  [.chain "c" .or, .set "c" ⟨"a.\"?", "?\"", .oneOf ["u", .null], false⟩, .attach "c" "c",
    .aggregate "f" .arrayAgg true "c", .fragment "g" ⟨"\"?\" = ?", ["x"]⟩, .attach "c" "g",
    .attach "c" "f"]

theorem finished_in_step_hostile :
    (∀ name f, .fragment name f ∈ hostileSteps → f.Aligned) ∧
      ∃ builder, (empty.run hostileSteps).builder? "c" = some builder ∧
        builder.build.values = [.text "u", .text "u", .text "x", .text "u", .text "u"] ∧
        ∀ term ∈ builder.terms, Balanced term.text.toList := by
  have given : ∀ name f, .fragment name f ∈ hostileSteps → f.Aligned := by
    intro name f member
    have same : name = "g" ∧ f = ⟨"\"?\" = ?", ["x"]⟩ := by
      simpa [hostileSteps] using member
    rw [same.2]
    decide
  refine ⟨given, _, rfl, rfl, fun term member => ?_⟩
  exact ((finished_in_step hostileSteps given "c" _ rfl).1 term member).1

end Bench

end EntityStore.Sql

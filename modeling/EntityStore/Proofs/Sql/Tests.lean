import EntityStore.Condition.Matching
import EntityStore.Proofs.Sql.Meaning

/-!
What the test of a column means.

The text of a test has the tokens of its column, which name that column alone
whatever the name of the table, and those of its parameters.  As a term it means
what its predicate says of the value in the row (`ColumnTest.fragment_means`):
nothing equals null there, so equality with null is asked for as a check.
-/

namespace EntityStore.Sql

/-! ## Pieces of the text -/

theorem dottedParts_ne_nil (name : List Char) : dottedParts name ≠ [] := by
  cases name with
  | nil => nofun
  | cons c rest =>
      rw [dottedParts]
      split
      · nofun
      · split
        · nofun
        · nofun

theorem Separates.dot : Separates ".".toList [.dot] :=
  ⟨rfl, fun _ => .cons (by decide) (by decide), fun _ => rfl⟩

theorem Scans.qualified {next : Nat} {parts : List String} (some : parts ≠ []) (column : String) :
    Scans (".".intercalate (parts.map quoteIdentifier) ++ "." ++ quoteIdentifier column).toList
      next 0 (columnTokens parts column) := by
  induction parts with
  | nil => exact (some rfl).elim
  | cons part parts ih =>
      cases parts with
      | nil =>
          rw [List.map_singleton, String.intercalate_singleton, String.toList_append,
            String.toList_append]
          exact (Scans.identifier part).join .dot (.identifier column)
      | cons other parts =>
          have split : (".".intercalate ((part :: other :: parts).map quoteIdentifier) ++ "." ++
              quoteIdentifier column).toList =
              (quoteIdentifier part).toList ++ ".".toList ++
                (".".intercalate ((other :: parts).map quoteIdentifier) ++ "." ++
                  quoteIdentifier column).toList := by
            rw [List.map_cons, List.map_cons, String.intercalate_cons_cons]
            simp only [String.toList_append, List.append_assoc]
          rw [split]
          exact (Scans.identifier part).join .dot (ih nofun)

/-- A column is read as itself, whatever its table. -/
theorem Scans.column (table column : String) :
    ∃ parts, ∀ next, Scans (quoteColumn table column).toList next 0
      (columnTokens parts column) := by
  unfold quoteColumn
  split
  · exact ⟨[], fun _ => .identifier column⟩
  · refine ⟨(dottedParts table.toList).map String.ofList, fun next => ?_⟩
    have quoted : quoteTable table =
        ".".intercalate (((dottedParts table.toList).map String.ofList).map quoteIdentifier) := by
      rw [List.map_map]
      rfl
    rw [quoted]
    refine .qualified ?_ column
    simpa using dottedParts_ne_nil table.toList

theorem Scans.castMarker {next : Nat} :
    Scans "?::timestamptz".toList next 1 [.parameter next, .cast, .timestamptz] := by
  have cast : Scans "::timestamptz".toList (next + 1) 0 ([.cast] ++ [.timestamptz]) :=
    @Scans.words (next + 1) "::timestamptz".toList "timestamptz".toList [.cast] rfl fun _ => rfl
  exact Scans.marker.append cast fun _ _ => .cons (by decide) (by decide)

namespace ColumnTest

variable {next : Nat}

theorem scans_marker (t : ColumnTest) :
    Scans t.marker.toList next 1 (parameterTokens t.comparesTime next) := by
  unfold marker parameterTokens
  cases t.comparesTime with
  | false => exact .marker
  | true => exact .castMarker

theorem scans_markers (t : ColumnTest) {count : Nat} (some : count ≠ 0) (next : Nat) :
    Scans (", ".intercalate (List.replicate count t.marker)).toList next count
      (parameterListTokens t.comparesTime (List.range' next count)) := by
  have comma : Separates ", ".toList [.comma] :=
    ⟨rfl, fun _ => .cons (by decide) (by decide), fun _ => rfl⟩
  induction count generalizing next with
  | zero => exact (some rfl).elim
  | succ count ih =>
      cases count with
      | zero =>
          have single : ", ".intercalate (List.replicate 1 t.marker) = t.marker :=
            String.intercalate_singleton
          rw [single]
          have tokens : parameterListTokens t.comparesTime (List.range' next 1) =
              parameterTokens t.comparesTime next := by
            simp [parameterListTokens]
          rw [tokens]
          exact t.scans_marker
      | succ count =>
          have split : (", ".intercalate (List.replicate (count + 1 + 1) t.marker)).toList =
              t.marker.toList ++ ", ".toList ++
                (", ".intercalate (List.replicate (count + 1) t.marker)).toList := by
            rw [List.replicate_succ, List.replicate_succ, String.intercalate_cons_cons]
            simp only [String.toList_append]
          have joined := t.scans_marker.join comma (ih (Nat.succ_ne_zero _) (next + 1))
          have numbers : List.range' next (count + 1 + 1) =
              next :: (next + 1) :: List.range' (next + 1 + 1) count := rfl
          rw [split, numbers, parameterListTokens_cons, Nat.add_comm (count + 1) 1]
          exact joined

end ColumnTest

/-! ## Comparisons in a row -/

theorem Scalar.value_parameter (row : String → Value) (before values : List Value)
    (value : Value) :
    (Scalar.parameter (before.length + 1)).value row (before ++ value :: values) = value := by
  simp [Scalar.value]

theorem Comparison.equal_holds {value operand : Value} (present : operand.isNull = false) :
    Comparison.equal.holds value operand = some true ↔ value = operand := by
  unfold Comparison.holds
  by_cases null : value.isNull = true
  · have differ : value ≠ operand := by
      rintro rfl
      rw [present] at null
      cases null
    simp [null, differ]
  · simp [null, present]

/-- A list of parameters that are not null has the members that it denotes. -/
theorem Expr.memberOf_eval (row : String → Value) (column : String) (after : List Value)
    {values : List Value} (present : ∀ v ∈ values, v.isNull = false) (before : List Value) :
    (Expr.memberOf (.column column)
        ((List.range' (before.length + 1) values.length).map .parameter)).eval row
        (before ++ values ++ after) = some true ↔ row column ∈ values := by
  induction values generalizing before with
  | nil => simp [Expr.eval]
  | cons value values ih =>
      have first := Scalar.value_parameter row before (values ++ after) value
      have others := ih (fun v member => present v (List.mem_cons_of_mem _ member))
        (before ++ [value])
      have moved : before ++ [value] ++ values ++ after = before ++ value :: (values ++ after) := by
        simp
      rw [List.length_append, List.length_singleton, moved] at others
      rw [List.append_assoc, List.cons_append, List.length_cons, List.range'_succ, List.map_cons,
        List.mem_cons, ← others, ← Comparison.equal_holds (present value List.mem_cons_self)]
      simp only [Expr.eval, List.foldr_cons, Truth.or_eq_true, first]
      rfl

/-! ## Tests -/

namespace ColumnTest

variable (t : ColumnTest) (row : String → Value)

/-- A test that only looks at the column. -/
theorem check_means {check : String} {tokens : List Token} {expr : Expr} {holds : Bool}
    (scans : ∀ next, Scans check.toList next 0 tokens)
    (apart : ∀ rest, Apart (check.toList ++ rest))
    (reads : ∀ parts, Reads .term (columnTokens parts t.column ++ tokens) expr)
    (eval : ∀ values, expr.eval row values = some true ↔ holds = true) :
    (Fragment.mk (t.columnText ++ check) []).Means row .term holds := by
  intro before after
  obtain ⟨parts, column⟩ := Scans.column t.table t.column
  refine ⟨_, expr, ?_, reads parts, eval _⟩
  rw [String.toList_append]
  exact (column _).append (scans _) fun rest _ => apart rest

theorem nullCheck_means : t.nullCheck.Means row .term (row t.column).isNull := by
  refine t.check_means row (fun next => ?_)
    (fun _ => .cons (by decide) (by decide)) (fun parts => .isNull parts t.column) fun _ => ?_
  · exact @Scans.words next " IS NULL".toList "NULL".toList [.is] rfl fun _ => rfl
  · simp [Expr.eval, Scalar.value]

theorem notNullCheck_means :
    (Fragment.mk (t.columnText ++ " IS NOT NULL") []).Means row .term
      !(row t.column).isNull := by
  refine t.check_means row (fun next => ?_)
    (fun _ => .cons (by decide) (by decide)) (fun parts => .isNotNull parts t.column) fun _ => ?_
  · exact @Scans.words next " IS NOT NULL".toList "NULL".toList [.is, .not] rfl fun _ => rfl
  · simp [Expr.eval, Scalar.value]

theorem comparison_means (operator : Comparison) {symbol : String} (operand : Value)
    (separates : Separates (" " ++ symbol ++ " ").toList [operator.token]) {holds : Bool}
    (eval : operator.holds (row t.column) operand = some true ↔ holds = true) :
    (t.comparison symbol operand).Means row .term holds := by
  intro before after
  obtain ⟨parts, column⟩ := Scans.column t.table t.column
  refine ⟨_, _, ?_, Reads.compare parts t.column t.comparesTime operator
    (before.length + 1), ?_⟩
  · have text : (t.comparison symbol operand).text.toList =
        t.columnText.toList ++ (" " ++ symbol ++ " ").toList ++ t.marker.toList := by
      simp only [comparison, String.toList_append, List.append_assoc]
    rw [text]
    exact (column _).join separates t.scans_marker
  · have value := Scalar.value_parameter row before after operand
    have values : before ++ (t.comparison symbol operand).values ++ after =
        before ++ operand :: after := by
      simp [comparison]
    rw [values]
    simp only [Expr.eval, value]
    exact eval

theorem between_means (first last : Value) :
    (Fragment.mk (t.columnText ++ " BETWEEN " ++ t.marker ++ " AND " ++ t.marker)
      [first, last]).Means row .term
      ((Predicate.between first last).holds (some (row t.column))) := by
  intro before after
  obtain ⟨parts, column⟩ := Scans.column t.table t.column
  have between : Separates " BETWEEN ".toList [.between] :=
    ⟨rfl, fun _ => .cons (by decide) (by decide), fun _ => rfl⟩
  refine ⟨_, _, ?_, Reads.between parts t.column t.comparesTime
    (before.length + 1) (before.length + 2), ?_⟩
  · have text : (t.columnText ++ " BETWEEN " ++ t.marker ++ " AND " ++ t.marker).toList =
        t.columnText.toList ++ " BETWEEN ".toList ++
          (t.marker.toList ++ " AND ".toList ++ t.marker.toList) := by
      simp only [String.toList_append, List.append_assoc]
    rw [text]
    exact (column _).join between (t.scans_marker.join .and t.scans_marker)
  · have firstValue := Scalar.value_parameter row before (last :: after) first
    have lastValue := Scalar.value_parameter row (before ++ [first]) after last
    have moved : before ++ [first] ++ last :: after = before ++ first :: last :: after := by simp
    have values : before ++ [first, last] ++ after = before ++ first :: last :: after := by simp
    rw [List.length_append, List.length_singleton, moved] at lastValue
    have column : (Scalar.column t.column).value row (before ++ first :: last :: after) =
        row t.column := rfl
    rw [values]
    simp only [Expr.eval, column, firstValue, lastValue, Truth.and_eq_true, Truth.map_eq_true,
      Predicate.holds, Option.bind_some, Bool.and_eq_true]

/-- A list without nulls, as a test of its own. -/
theorem inList_means {present : List Value} (some : present ≠ [])
    (notNull : ∀ v ∈ present, v.isNull = false) :
    (Fragment.mk (t.columnText ++ " IN (" ++
      ", ".intercalate (List.replicate present.length t.marker) ++ ")") present).Means row .term
      (decide (row t.column ∈ present)) := by
  intro before after
  obtain ⟨parts, column⟩ := Scans.column t.table t.column
  have memberOf : Separates " IN (".toList [.memberOf, .open] :=
    ⟨rfl, fun _ => .cons (by decide) (by decide), fun _ => rfl⟩
  have length : present.length ≠ 0 := by simpa using some
  have numbers : List.range' (before.length + 1) present.length ≠ [] := by simpa using some
  refine ⟨_, _, ?_, Reads.memberOf parts t.column t.comparesTime numbers, ?_⟩
  · have text : (t.columnText ++ " IN (" ++
        ", ".intercalate (List.replicate present.length t.marker) ++ ")").toList =
        t.columnText.toList ++ " IN (".toList ++
          (", ".intercalate (List.replicate present.length t.marker)).toList ++ ")".toList ++
          [] := by
      simp only [String.toList_append, List.append_nil]
    have joined := ((column (before.length + 1)).join memberOf
      (t.scans_markers length _)).join .close .nil
    rw [List.append_assoc (columnTokens parts t.column), Nat.zero_add] at joined
    rw [text]
    exact joined
  · rw [Expr.memberOf_eval row t.column after notNull, decide_eq_true_iff]

/-- Nulls among operands can be asked for apart. -/
theorem contains_eq (value : Value) (operands : List Value) :
    operands.contains value =
      (decide (value ∈ operands.filter fun operand => !operand.isNull) ||
        (operands.any Value.isNull && value.isNull)) := by
  rw [Bool.eq_iff_iff]
  cases null : value.isNull with
  | false => simp [null]
  | true =>
      have isNull := Value.isNull_iff.mp null
      subst isNull
      have present : operands.any Value.isNull = true ↔ Value.null ∈ operands := by
        simp [Value.isNull_iff]
      simp [Value.isNull, ← present]

theorem membership_means (operands : List Value) :
    (t.membership operands).Means row .term (operands.contains (row t.column)) := by
  have notNull : ∀ v ∈ operands.filter fun operand => !operand.isNull, v.isNull = false := by
    intro v member
    simpa using (List.mem_filter.mp member).2
  have contains : operands.contains (row t.column) =
      (decide (row t.column ∈ operands.filter fun operand => !operand.isNull) ||
        (operands.any Value.isNull && (row t.column).isNull)) :=
    contains_eq (row t.column) operands
  unfold membership
  simp only
  split
  · rename_i none
    rw [List.isEmpty_iff.mp none] at contains
    split
    · rename_i hasNull
      rw [contains, hasNull]
      simpa using t.nullCheck_means row
    · rename_i hasNull
      rw [contains, Bool.eq_false_iff.mpr hasNull]
      exact .truth false
  · rename_i some
    have list := t.inList_means row (fun none => some (List.isEmpty_iff.mpr none)) notNull
    split
    · rename_i hasNull
      have alternatives := (list.conjunction.or
        (t.nullCheck_means row).conjunction.disjunction).grouped
      rw [contains, hasNull, Bool.true_and]
      simpa [Fragment.grouped, nullCheck, String.append_assoc] using alternatives
    · rename_i hasNull
      rw [contains, Bool.eq_false_iff.mpr hasNull]
      simpa using list

/-- The text of a test means what its predicate says of the value in the row. -/
theorem fragment_means :
    t.fragment.Means row .term (t.predicate.holds (some (row t.column))) := by
  unfold fragment
  split
  · rename_i operand same
    rw [same]
    split
    · rename_i isNull
      have holds : (Predicate.equals operand).holds (some (row t.column)) =
          (row t.column).isNull := by
        rw [Value.isNull_iff.mp isNull, Bool.eq_iff_iff, Value.isNull_iff]
        simp [Predicate.holds]
      rw [holds]
      exact t.nullCheck_means row
    · rename_i present
      refine t.comparison_means row .equal operand ?_ ?_
      · exact ⟨rfl, fun _ => .cons (by decide) (by decide), fun _ => rfl⟩
      · rw [Comparison.equal_holds (Bool.eq_false_iff.mpr present)]
        simp [Predicate.holds]
  · rename_i limit same
    rw [same]
    refine t.comparison_means row .less limit ?_ ?_
    · exact ⟨rfl, fun _ => .cons (by decide) (by decide), fun _ => rfl⟩
    · exact Truth.map_beq_eq_true.trans (by simp [Predicate.holds])
  · rename_i limit same
    rw [same]
    refine t.comparison_means row .greater limit ?_ ?_
    · exact ⟨rfl, fun _ => .cons (by decide) (by decide), fun _ => rfl⟩
    · exact Truth.map_beq_eq_true.trans (by simp [Predicate.holds])
  · rename_i first last same
    rw [same]
    exact t.between_means row first last
  · rename_i operands same
    rw [same]
    exact t.membership_means row operands
  · rename_i same
    rw [same]
    exact t.nullCheck_means row
  · rename_i same
    rw [same]
    exact t.notNullCheck_means row

end ColumnTest

end EntityStore.Sql

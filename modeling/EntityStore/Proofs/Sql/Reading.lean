import EntityStore.Proofs.Sql.Scanning

/-!
Reading the tokens of conditions.

A list of tokens reads as a condition on one of three levels (`Reads`): as a term,
as a conjunction or as a disjunction, provided that what follows does not go on with it.
The rules below are those of the grammar, one for each way in which a fragment is
made of smaller ones.
-/

namespace EntityStore.Sql

/-! ## Scalars -/

/-- The tokens read as a scalar. -/
def ReadsScalar (tokens : List Token) (scalar : Scalar) : Prop :=
  ∀ rest : List Token, (∀ t ∈ rest.head?, t ≠ .dot ∧ t ≠ .cast) →
    readScalar (tokens ++ rest) = some (scalar, rest)

/-- The tokens of a column behind the parts of its table's name. -/
def columnTokens (parts : List String) (column : String) : List Token :=
  parts.flatMap (fun part => [.identifier part, .dot]) ++ [.identifier column]

theorem columnTokens_cons (part : String) (parts : List String) (column : String) :
    columnTokens (part :: parts) column = .identifier part :: .dot :: columnTokens parts column :=
  rfl

/-- A column's tokens begin with an identifier. -/
theorem columnTokens_head (parts : List String) (column : String) :
    ∃ name rest, columnTokens parts column = .identifier name :: rest := by
  cases parts with
  | nil => exact ⟨_, _, rfl⟩
  | cons part parts => exact ⟨_, _, rfl⟩

theorem skipCasts_of_head {rest : List Token} (ends : ∀ t ∈ rest.head?, t ≠ .dot ∧ t ≠ .cast) :
    skipCasts rest = rest := by
  unfold skipCasts
  split
  · exact absurd rfl (ends _ rfl).2
  · rfl

/-- A dotted reference is the column of its last identifier. -/
theorem readColumn_columnTokens (parts : List String) (column : String) {rest : List Token}
    (ends : ∀ t ∈ rest.head?, t ≠ .dot ∧ t ≠ .cast) :
    readColumn (columnTokens parts column ++ rest) = some (column, rest) := by
  induction parts with
  | nil =>
      have last : columnTokens [] column ++ rest = .identifier column :: rest := rfl
      rw [last]
      unfold readColumn
      split
      · rename_i follows
        cases follows
        exact absurd rfl (ends _ rfl).1
      · rename_i same
        cases same
        rfl
      · rename_i other
        exact (other _ _ rfl).elim
  | cons part parts ih =>
      rw [columnTokens_cons]
      exact ih

theorem ReadsScalar.column (parts : List String) (column : String) :
    ReadsScalar (columnTokens parts column) (.column column) := by
  intro rest ends
  have read := readColumn_columnTokens parts column ends
  obtain ⟨name, others, head⟩ := columnTokens_head parts column
  rw [head, List.cons_append] at read ⊢
  simp only [readScalar, read, Option.map_some, skipCasts_of_head ends]

theorem ReadsScalar.parameter (n : Nat) : ReadsScalar [.parameter n] (.parameter n) := by
  intro rest ends
  simp only [List.cons_append, List.nil_append, readScalar, skipCasts_of_head ends]

theorem ReadsScalar.castParameter (n : Nat) :
    ReadsScalar [.parameter n, .cast, .timestamptz] (.parameter n) := by
  intro rest ends
  simp only [List.cons_append, List.nil_append, readScalar, skipCasts, skipCasts_of_head ends]

/-! ## Levels -/

/-- What a condition is read as. -/
inductive Level where
  | term
  | conjunction
  | disjunction

namespace Level

/-- The reader of the level. -/
def read : Level → Nat → List Token → Option (Expr × List Token)
  | .term => readTerm
  | .conjunction => readConjunction
  | .disjunction => readDisjunction

/-- The fuel that the level takes beyond three for each token. -/
def depth : Level → Nat
  | .term => 0
  | .conjunction => 1
  | .disjunction => 2

/-- Whether a token ends what is read on the level. -/
def endsAt : Level → Token → Bool
  | .term, t => t == .and || t == .or || t == .close
  | .conjunction, t => t == .or || t == .close
  | .disjunction, t => t == .close

end Level

/-- The tokens read as a condition on a level. -/
def Reads (level : Level) (tokens : List Token) (expr : Expr) : Prop :=
  ∀ (fuel : Nat) (rest : List Token), 3 * tokens.length + level.depth ≤ fuel →
    (∀ t ∈ rest.head?, level.endsAt t = true) → level.read fuel (tokens ++ rest) = some (expr, rest)

theorem Level.ends_scalar {level : Level} {t : Token} (ends : level.endsAt t = true) :
    t ≠ .dot ∧ t ≠ .cast := by
  constructor
  · rintro rfl
    cases level <;> cases ends
  · rintro rfl
    cases level <;> cases ends

namespace Reads

variable {tokens tokens' : List Token} {expr expr' : Expr}

/-- A term is a conjunction. -/
theorem conjunction (reads : Reads .term tokens expr) : Reads .conjunction tokens expr := by
  intro fuel rest enough ends
  obtain ⟨fuel, rfl⟩ : ∃ n, fuel = n + 1 := ⟨fuel - 1, by simp only [Level.depth] at enough; omega⟩
  have endsTerm : ∀ t ∈ rest.head?, Level.term.endsAt t = true := by
    intro t head
    have stops := ends t head
    simp only [Level.endsAt, Bool.or_eq_true] at stops ⊢
    rcases stops with isOr | isClose
    · exact .inl (.inr isOr)
    · exact .inr isClose
  have read : readTerm fuel (tokens ++ rest) = some (expr, rest) :=
    reads fuel rest (by simp only [Level.depth] at enough ⊢; omega) endsTerm
  simp only [Level.read, readConjunction, read]
  split
  -- No conjunction ends at `AND`, so the reader stops after the term.
  · rename_i goesOn
    cases goesOn
    exact absurd (ends _ rfl) (by decide)
  · rfl

/-- A conjunction is a disjunction. -/
theorem disjunction (reads : Reads .conjunction tokens expr) : Reads .disjunction tokens expr := by
  intro fuel rest enough ends
  obtain ⟨fuel, rfl⟩ : ∃ n, fuel = n + 1 := ⟨fuel - 1, by simp only [Level.depth] at enough; omega⟩
  have endsConjunction : ∀ t ∈ rest.head?, Level.conjunction.endsAt t = true := by
    intro t head
    have stops := ends t head
    simp only [Level.endsAt, Bool.or_eq_true] at stops ⊢
    exact .inr stops
  have read : readConjunction fuel (tokens ++ rest) = some (expr, rest) :=
    reads fuel rest (by simp only [Level.depth] at enough ⊢; omega) endsConjunction
  simp only [Level.read, readDisjunction, read]
  split
  · rename_i goesOn
    cases goesOn
    exact absurd (ends _ rfl) (by decide)
  · rfl

theorem and (left : Reads .term tokens expr) (right : Reads .conjunction tokens' expr') :
    Reads .conjunction (tokens ++ .and :: tokens') (.and expr expr') := by
  intro fuel rest enough ends
  simp only [Level.depth, List.length_append, List.length_cons] at enough
  obtain ⟨fuel, rfl⟩ : ∃ n, fuel = n + 1 := ⟨fuel - 1, by omega⟩
  have readLeft : readTerm fuel (tokens ++ .and :: (tokens' ++ rest)) =
      some (expr, .and :: (tokens' ++ rest)) := by
    refine left fuel _ (by simp only [Level.depth]; omega) fun t head => ?_
    cases head
    rfl
  have readRight : readConjunction fuel (tokens' ++ rest) = some (expr', rest) :=
    right fuel rest (by simp only [Level.depth]; omega) ends
  rw [List.append_assoc, List.cons_append]
  simp only [Level.read, readConjunction, readLeft, readRight, Option.map_some]

theorem or (left : Reads .conjunction tokens expr) (right : Reads .disjunction tokens' expr') :
    Reads .disjunction (tokens ++ .or :: tokens') (.or expr expr') := by
  intro fuel rest enough ends
  simp only [Level.depth, List.length_append, List.length_cons] at enough
  obtain ⟨fuel, rfl⟩ : ∃ n, fuel = n + 1 := ⟨fuel - 1, by omega⟩
  have readLeft : readConjunction fuel (tokens ++ .or :: (tokens' ++ rest)) =
      some (expr, .or :: (tokens' ++ rest)) := by
    refine left fuel _ (by simp only [Level.depth]; omega) fun t head => ?_
    cases head
    rfl
  have readRight : readDisjunction fuel (tokens' ++ rest) = some (expr', rest) :=
    right fuel rest (by simp only [Level.depth]; omega) ends
  rw [List.append_assoc, List.cons_append]
  simp only [Level.read, readDisjunction, readLeft, readRight, Option.map_some]

/-- A disjunction in parentheses is a term. -/
theorem group (reads : Reads .disjunction tokens expr) :
    Reads .term ([.open] ++ tokens ++ [.close]) expr := by
  intro fuel rest enough ends
  simp only [Level.depth, List.length_append, List.length_cons, List.length_nil] at enough
  obtain ⟨fuel, rfl⟩ : ∃ n, fuel = n + 1 := ⟨fuel - 1, by omega⟩
  have read : readDisjunction fuel (tokens ++ .close :: rest) = some (expr, .close :: rest) := by
    refine reads fuel _ (by simp only [Level.depth]; omega) fun t head => ?_
    cases head
    rfl
  simp only [List.append_assoc, List.cons_append, List.nil_append, Level.read, readTerm, read]

theorem truth (b : Bool) : Reads .term [.truth b] (.truth b) := by
  intro fuel rest enough ends
  simp only [Level.depth, List.length_cons, List.length_nil] at enough
  obtain ⟨fuel, rfl⟩ : ∃ n, fuel = n + 1 := ⟨fuel - 1, by omega⟩
  simp only [List.cons_append, List.nil_append, Level.read, readTerm]

end Reads

/-! ## Comparisons -/

/-- The token of an operator. -/
def Comparison.token : Comparison → Token
  | .equal => .equal
  | .less => .less
  | .greater => .greater

/-- The tokens of a parameter, possibly cast. -/
def parameterTokens (cast : Bool) (n : Nat) : List Token :=
  if cast then [.parameter n, .cast, .timestamptz] else [.parameter n]

theorem ReadsScalar.parameterTokens (cast : Bool) (n : Nat) :
    ReadsScalar (parameterTokens cast n) (.parameter n) := by
  cases cast with
  | false => exact .parameter n
  | true => exact .castParameter n

/-- The tokens of parameters with commas between them. -/
def parameterListTokens (cast : Bool) (numbers : List Nat) : List Token :=
  [Token.comma].intercalate (numbers.map (parameterTokens cast))

theorem parameterListTokens_cons (cast : Bool) (n m : Nat) (numbers : List Nat) :
    parameterListTokens cast (n :: m :: numbers) =
      parameterTokens cast n ++ .comma :: parameterListTokens cast (m :: numbers) := by
  simp [parameterListTokens, List.intercalate_cons_cons]

theorem length_le_parameterListTokens (cast : Bool) (numbers : List Nat) :
    numbers.length ≤ (parameterListTokens cast numbers).length := by
  induction numbers with
  | nil => exact Nat.zero_le _
  | cons n numbers ih =>
      cases numbers with
      | nil => cases cast <;> simp [parameterListTokens, parameterTokens]
      | cons m numbers =>
          rw [parameterListTokens_cons]
          simp only [List.length_append, List.length_cons] at ih ⊢
          omega

theorem readList_parameterListTokens (cast : Bool) (rest : List Token) {numbers : List Nat}
    (some : numbers ≠ []) :
    ∀ fuel : Nat, numbers.length ≤ fuel →
      readList fuel (parameterListTokens cast numbers ++ .close :: rest) =
        .some (numbers.map .parameter, rest) := by
  induction numbers with
  | nil => exact (some rfl).elim
  | cons n numbers ih =>
      intro fuel enough
      rw [List.length_cons] at enough
      obtain ⟨fuel, rfl⟩ : ∃ k, fuel = k + 1 := ⟨fuel - 1, by omega⟩
      cases numbers with
      | nil =>
          have last : readScalar (parameterTokens cast n ++ .close :: rest) =
              .some (.parameter n, .close :: rest) := by
            refine ReadsScalar.parameterTokens cast n _ fun t head => ?_
            cases head
            exact ⟨nofun, nofun⟩
          simp only [parameterListTokens, List.map_cons, List.map_nil, List.intercalate_singleton,
            readList, last]
      | cons m numbers =>
          have others := ih nofun fuel (by omega)
          have first : readScalar (parameterTokens cast n ++
              .comma :: (parameterListTokens cast (m :: numbers) ++ .close :: rest)) =
              .some (.parameter n,
                .comma :: (parameterListTokens cast (m :: numbers) ++ .close :: rest)) := by
            refine ReadsScalar.parameterTokens cast n _ fun t head => ?_
            cases head
            exact ⟨nofun, nofun⟩
          rw [parameterListTokens_cons, List.append_assoc, List.cons_append]
          simp only [readList, first, others, Option.map_some, List.map_cons]

namespace Reads

variable (parts : List String) (column : String) (cast : Bool)

/-- What begins with a column is read as a comparison. -/
theorem comparison {tokens : List Token} {expr : Expr}
    (read : ∀ (fuel : Nat) (rest : List Token), tokens.length ≤ fuel →
      (∀ t ∈ rest.head?, Level.term.endsAt t = true) →
      readComparison fuel (columnTokens parts column ++ (tokens ++ rest)) = some (expr, rest)) :
    Reads .term (columnTokens parts column ++ tokens) expr := by
  intro fuel rest enough ends
  obtain ⟨name, others, head⟩ := columnTokens_head parts column
  simp only [Level.depth, List.length_append, head, List.length_cons] at enough
  obtain ⟨fuel, rfl⟩ : ∃ n, fuel = n + 1 := ⟨fuel - 1, by omega⟩
  have compared := read fuel rest (by omega) ends
  rw [List.append_assoc]
  rw [head, List.cons_append] at compared ⊢
  simpa only [Level.read, readTerm] using compared

/-- A column ends before a token that is neither a dot nor a cast. -/
theorem column_before {t : Token} (ends : t ≠ .dot ∧ t ≠ .cast) (rest : List Token) :
    readScalar (columnTokens parts column ++ t :: rest) = some (.column column, t :: rest) := by
  refine ReadsScalar.column parts column _ fun first head => ?_
  cases head
  exact ends

theorem compare (operator : Comparison) (n : Nat) :
    Reads .term (columnTokens parts column ++ operator.token :: parameterTokens cast n)
      (.compare operator (.column column) (.parameter n)) := by
  refine comparison parts column fun fuel rest _ ends => ?_
  have right : readScalar (parameterTokens cast n ++ rest) = some (.parameter n, rest) :=
    ReadsScalar.parameterTokens cast n rest fun t head => Level.ends_scalar (ends t head)
  have left := column_before parts column (t := operator.token)
    (by cases operator <;> exact ⟨nofun, nofun⟩) (parameterTokens cast n ++ rest)
  rw [List.cons_append]
  cases operator <;>
    simp only [Comparison.token] at left ⊢ <;>
    simp only [readComparison, left, right, Option.map_some]

theorem between (first last : Nat) :
    Reads .term
      (columnTokens parts column ++
        .between :: (parameterTokens cast first ++ .and :: parameterTokens cast last))
      (.between (.column column) (.parameter first) (.parameter last)) := by
  refine comparison parts column fun fuel rest _ ends => ?_
  have right : readScalar (parameterTokens cast last ++ rest) = some (.parameter last, rest) :=
    ReadsScalar.parameterTokens cast last rest fun t head => Level.ends_scalar (ends t head)
  have middle : readScalar (parameterTokens cast first ++
      .and :: (parameterTokens cast last ++ rest)) =
      some (.parameter first, .and :: (parameterTokens cast last ++ rest)) := by
    refine ReadsScalar.parameterTokens cast first _ fun t head => ?_
    cases head
    exact ⟨nofun, nofun⟩
  have left := column_before parts column (t := .between) ⟨nofun, nofun⟩
    (parameterTokens cast first ++ .and :: (parameterTokens cast last ++ rest))
  rw [List.cons_append, List.append_assoc, List.cons_append]
  simp only [readComparison, left, middle, right, Option.map_some]

theorem memberOf {numbers : List Nat} (some : numbers ≠ []) :
    Reads .term
      (columnTokens parts column ++
        .memberOf :: .open :: (parameterListTokens cast numbers ++ [.close]))
      (.memberOf (.column column) (numbers.map .parameter)) := by
  refine comparison parts column fun fuel rest enough _ => ?_
  have list : readList fuel (parameterListTokens cast numbers ++ .close :: rest) =
      .some (numbers.map .parameter, rest) := by
    refine readList_parameterListTokens cast rest some fuel ?_
    have count := length_le_parameterListTokens cast numbers
    simp only [List.length_cons, List.length_append] at enough
    omega
  have left := column_before parts column (t := .memberOf) ⟨nofun, nofun⟩
    (.open :: (parameterListTokens cast numbers ++ .close :: rest))
  simp only [List.cons_append, List.append_assoc, List.nil_append, readComparison, left, list,
    Option.map_some]

theorem isNull :
    Reads .term (columnTokens parts column ++ [.is, .null]) (.isNull (.column column)) := by
  refine comparison parts column fun fuel rest _ _ => ?_
  have left := column_before parts column (t := .is) ⟨nofun, nofun⟩
    (.null :: rest)
  simp only [List.cons_append, List.nil_append, readComparison, left]

theorem isNotNull :
    Reads .term (columnTokens parts column ++ [.is, .not, .null])
      (.isNotNull (.column column)) := by
  refine comparison parts column fun fuel rest _ _ => ?_
  have left := column_before parts column (t := .is) ⟨nofun, nofun⟩
    (.not :: .null :: rest)
  simp only [List.cons_append, List.nil_append, readComparison, left]

end Reads

end EntityStore.Sql

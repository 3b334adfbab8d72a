import EntityStore.Proofs.Sql.Alignment

/-!
The names in the text of a column.

A reader that knows nothing of tables takes text apart into names between double quotes, with
single dots between them and nothing else (`readNames`).  It accepts exactly what joining quoted
names writes (`readNames_eq_some_iff`), so the parts of a table and a column are read from the text
of the column and from no other, whatever characters they are made of.  No two columns have the same
text, and no column can end its quotes or bring in a marker where it is put
(`quoteColumn_unambiguous`).
-/

namespace EntityStore.Sql

/-- Where in a list of quoted names the reading stands, with what it has read of the name. -/
inductive NamePlace where
  /-- Before the quote that opens a name. -/
  | opening
  | inside (name : List Char)
  /-- After a quote that closes the name unless another quote follows. -/
  | closing (name : List Char)

/-- The names in text that goes on from a place, if it is made of quoted names with dots between
them. -/
def readNames : NamePlace → List Char → Option (List (List Char))
  | .opening, [] => none
  | .inside _, [] => none
  | .closing name, [] => some [name]
  | .opening, c :: rest => if c = '"' then readNames (.inside []) rest else none
  | .inside name, c :: rest =>
      if c = '"' then readNames (.closing name) rest else readNames (.inside (name ++ [c])) rest
  | .closing name, c :: rest =>
      if c = '"' then readNames (.inside (name ++ [c])) rest
      else if c = '.' then (readNames .opening rest).map (name :: ·)
      else none

/-- Quoted names with dots between them. -/
def dotted (names : List (List Char)) : List Char := ['.'].intercalate (names.map quotedChars)

/-- The parts of a table, if it has a name, and the column. -/
def columnNames (table column : String) : List (List Char) :=
  (if table = "" then [] else table.toList.splitOn '.') ++ [column.toList]

theorem dotted_singleton (name : List Char) : dotted [name] = quotedChars name :=
  List.intercalate_singleton

theorem dotted_cons (name : List Char) {names : List (List Char)} (nonempty : names ≠ []) :
    dotted (name :: names) = quotedChars name ++ '.' :: dotted names := by
  unfold dotted
  rw [List.map_cons, List.intercalate_cons_of_ne_nil (by simpa using nonempty), List.append_assoc]
  rfl

theorem dotted_concat {names : List (List Char)} (nonempty : names ≠ []) (name : List Char) :
    dotted (names ++ [name]) = dotted names ++ '.' :: quotedChars name := by
  induction names with
  | nil => exact (nonempty rfl).elim
  | cons first names ih =>
      by_cases others : names = []
      · rw [others, List.singleton_append, dotted_cons first (List.cons_ne_nil _ _),
          dotted_singleton, dotted_singleton]
      · rw [List.cons_append, dotted_cons first (by simp), dotted_cons first others, ih others,
          List.append_assoc]
        rfl

/-! ## Reading quoted names -/

theorem doubleQuotes_append (name rest : List Char) :
    doubleQuotes (name ++ rest) = doubleQuotes name ++ doubleQuotes rest := by
  induction name with
  | nil => rfl
  | cons c name ih =>
      rw [List.cons_append, doubleQuotes, doubleQuotes, ih]
      split <;> rfl

theorem readNames_doubleQuotes (read name rest : List Char) :
    readNames (.inside read) (doubleQuotes name ++ rest) =
      readNames (.inside (read ++ name)) rest := by
  induction name generalizing read with
  | nil => simp [doubleQuotes]
  | cons c name ih =>
      by_cases quote : c = '"'
      · simp [doubleQuotes, readNames, quote, ih]
      · simp [doubleQuotes, readNames, quote, ih]

/-- A quoted name is read up to its closing quote. -/
theorem readNames_quotedChars (name rest : List Char) :
    readNames .opening (quotedChars name ++ rest) = readNames (.closing name) rest := by
  have opened : quotedChars name ++ rest = '"' :: (doubleQuotes name ++ '"' :: rest) := by
    simp [quotedChars]
  rw [opened, readNames, if_pos rfl, readNames_doubleQuotes, List.nil_append, readNames, if_pos rfl]

/-- Quoted names with dots between them are read as they are. -/
theorem readNames_dotted {names : List (List Char)} (nonempty : names ≠ []) :
    readNames .opening (dotted names) = some names := by
  induction names with
  | nil => exact (nonempty rfl).elim
  | cons name names ih =>
      by_cases others : names = []
      · have text : dotted [name] = quotedChars name ++ [] := by
          rw [dotted_singleton, List.append_nil]
        rw [others, text, readNames_quotedChars, readNames]
      · have dot : ('.' : Char) ≠ '"' := by decide
        rw [dotted_cons name others, readNames_quotedChars, readNames, if_neg dot, if_pos rfl,
          ih others]
        rfl

/-- The text that has led to a place, from the opening quote of the name on. -/
def NamePlace.text : NamePlace → List Char
  | .opening => []
  | .inside name => '"' :: doubleQuotes name
  | .closing name => quotedChars name

/-- What has been read and what is still to be read are quoted names with dots between them. -/
theorem eq_dotted_of_readNames {place : NamePlace} {text : List Char} {names : List (List Char)}
    (read : readNames place text = some names) :
    names ≠ [] ∧ place.text ++ text = dotted names := by
  induction text generalizing place names with
  | nil =>
      cases place with
      | opening => cases read
      | inside name => cases read
      | closing name =>
          cases read
          exact ⟨List.cons_ne_nil _ _, by rw [List.append_nil, dotted_singleton, NamePlace.text]⟩
  | cons c rest ih =>
      cases place with
      | opening =>
          rw [readNames] at read
          split at read
          · rename_i quote
            exact quote ▸ ih read
          · cases read
      | inside name =>
          rw [readNames] at read
          split at read
          · rename_i quote
            have later := ih read
            simpa [quote, NamePlace.text, quotedChars] using later
          · rename_i other
            have later := ih read
            simpa [NamePlace.text, doubleQuotes_append, doubleQuotes, other] using later
      | closing name =>
          rw [readNames] at read
          split at read
          · rename_i quote
            have later := ih read
            simpa [quote, NamePlace.text, quotedChars, doubleQuotes_append, doubleQuotes]
              using later
          · split at read
            · rename_i dot
              obtain ⟨others, readOthers, rfl⟩ := Option.map_eq_some_iff.mp read
              obtain ⟨nonempty, later⟩ := ih readOthers
              refine ⟨List.cons_ne_nil _ _, ?_⟩
              rw [dotted_cons name nonempty, ← later, dot]
              rfl
            · cases read

/-- Exactly quoted names with dots between them are read. -/
theorem readNames_eq_some_iff {text : List Char} {names : List (List Char)} :
    readNames .opening text = some names ↔ names ≠ [] ∧ text = dotted names := by
  constructor
  · exact eq_dotted_of_readNames
  · rintro ⟨nonempty, rfl⟩
    exact readNames_dotted nonempty

/-! ## The text of a column -/

theorem dottedParts_eq_splitOn (name : List Char) : dottedParts name = name.splitOn '.' := by
  induction name with
  | nil => rfl
  | cons c rest ih =>
      rw [dottedParts, List.splitOn_cons_eq_if_modifyHead, ih]
      by_cases dot : c = '.'
      · simp [dot]
      · rw [if_neg dot, if_neg (by simpa using dot)]
        cases parts : rest.splitOn '.' with
        | nil => exact (List.splitOn_ne_nil _ _ parts).elim
        | cons part parts => rfl

theorem toList_quoteTable (table : String) :
    (quoteTable table).toList = dotted (table.toList.splitOn '.') := by
  unfold quoteTable dotted
  rw [String.toList_intercalate, List.map_map, dottedParts_eq_splitOn]
  congr 1
  apply List.map_congr_left
  intro part _
  simp [quoteIdentifier]

/-- The text of a column joins its quoted names. -/
theorem toList_quoteColumn (table column : String) :
    (quoteColumn table column).toList = dotted (columnNames table column) := by
  unfold quoteColumn columnNames
  split
  · simp [dotted_singleton, quoteIdentifier]
  · rw [dotted_concat (List.splitOn_ne_nil _ _), String.toList_append, String.toList_append,
      toList_quoteTable]
    simp [quoteIdentifier]

/-- The names tell the table and the column. -/
theorem columnNames_injective {table column table' column' : String}
    (same : columnNames table column = columnNames table' column') :
    table = table' ∧ column = column' := by
  unfold columnNames at same
  obtain ⟨sameTable, sameColumn⟩ := List.append_inj' same rfl
  refine ⟨?_, String.toList_inj.mp (List.cons.inj sameColumn).1⟩
  by_cases named : table = ""
  · by_cases named' : table' = ""
    · exact named.trans named'.symm
    · rw [if_pos named, if_neg named'] at sameTable
      exact (List.splitOn_ne_nil _ _ sameTable.symm).elim
  · by_cases named' : table' = ""
    · rw [if_neg named, if_pos named'] at sameTable
      exact (List.splitOn_ne_nil _ _ sameTable).elim
    · rw [if_neg named, if_neg named'] at sameTable
      have joined := congrArg (['.'].intercalate) sameTable
      rw [List.intercalate_splitOn, List.intercalate_splitOn] at joined
      exact String.toList_inj.mp joined

/-- Names with dots between them are left as they are. -/
theorem numberFrom_dotted (names : List (List Char)) (next : Nat) (rest : List Char) :
    numberFrom false next (dotted names ++ rest) = dotted names ++ numberFrom false next rest := by
  induction names with
  | nil => rfl
  | cons name names ih =>
      by_cases others : names = []
      · rw [others, dotted_singleton, numberFrom_quotedChars]
      · have dot (text : List Char) :
            numberFrom false next ('.' :: text) = '.' :: numberFrom false next text := by
          simp [numberFrom]
        rw [dotted_cons name others, List.append_assoc, numberFrom_quotedChars, List.cons_append,
          dot, ih, List.append_assoc]
        rfl

/-- The parts of the table and the column are read from the text of the column and from no other
text, so different columns have different texts.  Numbering leaves it as it is, and goes on behind
it as if it were not there, wherever it stands outside quotes, since it leaves no quote open. -/
theorem quoteColumn_unambiguous (table column table' column' before after : String) :
    (∀ text, readNames .opening text = some (columnNames table column) ↔
        text = (quoteColumn table column).toList) ∧
      (quoteColumn table column = quoteColumn table' column' →
        table = table' ∧ column = column') ∧
      numberPlaceholders (quoteColumn table column) = quoteColumn table column ∧
      (Balanced before.toList →
        Balanced (before ++ quoteColumn table column).toList ∧
          (numberPlaceholders (before ++ quoteColumn table column ++ after)).toList =
            (numberPlaceholders before).toList ++ (quoteColumn table column).toList ++
              finishedFrom (markers before.toList) after.toList) := by
  have read (table column : String) (text : List Char) :
      readNames .opening text = some (columnNames table column) ↔
        text = (quoteColumn table column).toList := by
    have nonempty : columnNames table column ≠ [] :=
      List.append_ne_nil_of_right_ne_nil _ (List.cons_ne_nil _ _)
    rw [toList_quoteColumn, readNames_eq_some_iff]
    exact and_iff_right nonempty
  have passes (next : Nat) (rest : List Char) :
      numberFrom false next ((quoteColumn table column).toList ++ rest) =
        (quoteColumn table column).toList ++ numberFrom false next rest := by
    rw [toList_quoteColumn]
    exact numberFrom_dotted _ next rest
  refine ⟨read table column, fun same => ?_, ?_, fun balanced => ⟨?_, ?_⟩⟩
  · apply columnNames_injective
    apply Option.some.inj
    rw [← (read table column _).mpr rfl, ← (read table' column' _).mpr rfl, same]
  · have unchanged := passes 1 []
    rw [List.append_nil] at unchanged
    unfold numberPlaceholders
    rw [unchanged, numberFrom, List.append_nil, String.ofList_toList]
  · rw [String.toList_append]
    exact balanced_append balanced (aligned_quoteColumn table column).balanced
  · rw [toList_numberPlaceholders, toList_numberPlaceholders, String.toList_append,
      String.toList_append, List.append_assoc, finishedFrom_append balanced, Nat.zero_add,
      ← numberFrom_eq_finishedFrom (markers before.toList), passes, numberFrom_eq_finishedFrom,
      List.append_assoc]

/-- Names full of quotes, dots and question marks stay names, and a dot in a column is not one
between a table and a column. -/
theorem quoteColumn_unambiguous_samples :
    let column := quoteColumn "a\".b" "\"? = .c"
    column = "\"a\"\"\".\"b\".\"\"\"? = .c\"" ∧
      readNames .opening column.toList =
        some ["a\"".toList, "b".toList, "\"? = .c".toList] ∧
      Balanced "\"n?\" = ? AND ".toList ∧
      numberPlaceholders ("\"n?\" = ? AND " ++ column ++ " < ?") =
        "\"n?\" = $1 AND " ++ column ++ " < $2" ∧
      quoteColumn "a.b" "c" ≠ quoteColumn "a" "b.c" := by
  intro column
  have balanced : Balanced "\"n?\" = ? AND ".toList := by decide
  obtain ⟨read, -, -, placed⟩ := quoteColumn_unambiguous "a\".b" "\"? = .c" "" ""
    "\"n?\" = ? AND " " < ?"
  refine ⟨by decide, (read _).mpr rfl, balanced, ?_, fun same => ?_⟩
  · apply String.toList_inj.mp
    rw [(placed balanced).2]
    decide
  · obtain ⟨-, injective, -⟩ := quoteColumn_unambiguous "a.b" "c" "a" "b.c" "" ""
    exact absurd (injective same).2 (by decide)

end EntityStore.Sql

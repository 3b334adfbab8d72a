/-!
Quoted identifiers.

An identifier stands between double quotes with every quote inside it doubled,
so it ends where its closing quote stands and nowhere else.  A table name is
split at its dots, since it may be qualified by a schema; a column name is not.
-/

namespace EntityStore.Sql

/-- The characters with every double quote written twice. -/
def doubleQuotes : List Char → List Char
  | [] => []
  | c :: rest => if c = '"' then '"' :: '"' :: doubleQuotes rest else c :: doubleQuotes rest

/-- The characters of a quoted identifier. -/
def quotedChars (name : List Char) : List Char := '"' :: (doubleQuotes name ++ ['"'])

/-- The parts between the dots; without a dot there is one part. -/
def dottedParts : List Char → List (List Char)
  | [] => [[]]
  | c :: rest =>
      if c = '.' then [] :: dottedParts rest
      else
        match dottedParts rest with
        | [] => [[c]]
        | part :: parts => (c :: part) :: parts

/-- One quoted identifier. -/
def quoteIdentifier (name : String) : String := String.ofList (quotedChars name.toList)

/-- A table name with each of its dotted parts quoted. -/
def quoteTable (table : String) : String :=
  ".".intercalate ((dottedParts table.toList).map fun part => quoteIdentifier (String.ofList part))

/-- A column behind its table; the column alone where the table has no name. -/
def quoteColumn (table column : String) : String :=
  if table = "" then quoteIdentifier column
  else quoteTable table ++ "." ++ quoteIdentifier column

/-- A table name qualified by a schema that is given and has a name. -/
def qualifiedTable (schema : Option String) (table : String) : String :=
  match schema with
  | some schema => if schema = "" then table else schema ++ "." ++ table
  | none => table

end EntityStore.Sql

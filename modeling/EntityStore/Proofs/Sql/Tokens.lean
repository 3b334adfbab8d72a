import EntityStore.Sql.WhereClause

/-!
Query text as tokens.

`lex` reads text from left to right as PostgreSQL does.  A quoted identifier ends
at a quote that no other quote follows, `$` and digits are a parameter, letters
are a keyword, and every other character but a space is a token of its own, save
that two colons are one.  A `Mode` is the token that is being read.
-/

namespace EntityStore.Sql

/-- The tokens of a query; what no condition is made of is `word` or `other`. -/
inductive Token where
  | identifier (name : String)
  | parameter (n : Nat)
  | and
  | or
  | between
  | memberOf
  | is
  | not
  | null
  | truth (b : Bool)
  | timestamptz
  | word (text : String)
  | equal
  | less
  | greater
  | cast
  | dot
  | comma
  | «open»
  | close
  | other (c : Char)
  deriving DecidableEq

namespace Token

/-- The token of a word. -/
def ofWord (text : String) : Token :=
  if text = "AND" then .and
  else if text = "OR" then .or
  else if text = "BETWEEN" then .between
  else if text = "IN" then .memberOf
  else if text = "IS" then .is
  else if text = "NOT" then .not
  else if text = "NULL" then .null
  else if text = "TRUE" then .truth true
  else if text = "FALSE" then .truth false
  else if text = "timestamptz" then .timestamptz
  else .word text

/-- The token of a character that stands alone. -/
def ofSymbol (c : Char) : Token :=
  if c = '=' then .equal
  else if c = '<' then .less
  else if c = '>' then .greater
  else if c = '.' then .dot
  else if c = ',' then .comma
  else if c = '(' then .open
  else if c = ')' then .close
  else .other c

end Token

/-- Where in a token the reading stands, with what it has read of the token. -/
inductive Mode where
  | outside
  | quoted (name : List Char)
  /-- After a quote that closes the name unless another quote follows. -/
  | closing (name : List Char)
  | number (n : Option Nat)
  | word (text : List Char)
  | colon
  | cast

namespace Mode

/-- The token that ends where the text or the next token begins. -/
def finish : Mode → List Token
  | .outside => []
  | .quoted _ => [.other '"']
  | .closing name => [.identifier (String.ofList name)]
  | .number none => [.other '$']
  | .number (some n) => [.parameter n]
  | .word text => [.ofWord (String.ofList text)]
  | .colon => [.other ':']
  | .cast => [.cast]

/-- How the token goes on with a character, if the character belongs to it. -/
def continue? : Mode → Char → Option Mode
  | .quoted name, c => if c = '"' then some (.closing name) else some (.quoted (name ++ [c]))
  | .closing name, c => if c = '"' then some (.quoted (name ++ [c])) else none
  | .number n, c =>
      if c.isDigit then some (.number (some (10 * n.getD 0 + (c.toNat - '0'.toNat)))) else none
  | .word text, c => if c.isAlphanum then some (.word (text ++ [c])) else none
  | .colon, c => if c = ':' then some .cast else none
  | _, _ => none

/-- How a token starts with a character; a symbol is read at once. -/
def start (c : Char) : List Token × Mode :=
  if c = ' ' then ([], .outside)
  else if c = '"' then ([], .quoted [])
  else if c = '$' then ([], .number none)
  else if c = ':' then ([], .colon)
  else if c.isAlpha then ([], .word [c])
  else ([.ofSymbol c], .outside)

end Mode

/-- The tokens of text that goes on from a mode. -/
def lex : Mode → List Char → List Token
  | mode, [] => mode.finish
  | mode, c :: rest =>
      match mode.continue? c with
      | some mode => lex mode rest
      | none => mode.finish ++ (Mode.start c).1 ++ lex (Mode.start c).2 rest

/-- The tokens of a text. -/
def tokens (text : String) : List Token := lex .outside text.toList

end EntityStore.Sql

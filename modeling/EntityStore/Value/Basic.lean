import EntityStore.Timestamp.Basic

/-!
Property values.

A `Value` is what a property of an entity or an operand of a condition may
hold.  Integers are signed words of 64 bits and there are no fractions, so any
two values can be compared exactly.  Identifiers of stored entities are the
values that pass `Value.isTruthy`.
-/

namespace EntityStore

/-- A property value. -/
inductive Value where
  | null
  | bool (b : Bool)
  | integer (n : Int64)
  | text (s : String)
  | bytes (octets : List UInt8)
  | timestamp (t : Timestamp)
  | array (items : List Value)
  deriving Inhabited

namespace Value

/-- The kinds of value, in the order in which values of different kinds sort. -/
inductive Kind where
  | null | bool | integer | text | bytes | timestamp | array
  deriving DecidableEq

/-- The position of a kind among all kinds. -/
def Kind.rank : Kind → Nat
  | .null => 0
  | .bool => 1
  | .integer => 2
  | .text => 3
  | .bytes => 4
  | .timestamp => 5
  | .array => 6

/-- The name of a kind. -/
def Kind.name : Kind → String
  | .null => "null"
  | .bool => "bool"
  | .integer => "integer"
  | .text => "text"
  | .bytes => "bytes"
  | .timestamp => "timestamp"
  | .array => "array"

/-- The kind of a value. -/
def kind : Value → Kind
  | .null => .null
  | .bool _ => .bool
  | .integer _ => .integer
  | .text _ => .text
  | .bytes _ => .bytes
  | .timestamp _ => .timestamp
  | .array _ => .array

/-- Whether the value is null. -/
def isNull : Value → Bool
  | .null => true
  | _ => false

/-- False for null, `false`, zero and the empty text.  A value that is not
truthy identifies nothing. -/
def isTruthy : Value → Bool
  | .null => false
  | .bool b => b
  | .integer n => n != 0
  | .text s => s != ""
  | .bytes _ => true
  | .timestamp _ => true
  | .array _ => true

theorem isNull_iff {v : Value} : v.isNull = true ↔ v = .null := by
  cases v <;> simp [isNull]

/-! ## Reading a value as one kind -/

/-- The boolean, if the value is one. -/
def asBool? : Value → Option Bool
  | .bool b => some b
  | _ => none

/-- The integer, if the value is one. -/
def asInteger? : Value → Option Int64
  | .integer n => some n
  | _ => none

/-- The text, if the value is one. -/
def asText? : Value → Option String
  | .text s => some s
  | _ => none

/-- The octets, if the value is a byte string. -/
def asBytes? : Value → Option (List UInt8)
  | .bytes octets => some octets
  | _ => none

/-- The point in time, if the value is one. -/
def asTimestamp? : Value → Option Timestamp
  | .timestamp t => some t
  | _ => none

/-- The items, if the value is an array. -/
def asArray? : Value → Option (List Value)
  | .array items => some items
  | _ => none

/-! ## Making values -/

/-- A signed word of 32 bits keeps its number. -/
def ofInt32 (n : Int32) : Value := .integer n.toInt64

/-- An unsigned word of 32 bits keeps its number. -/
def ofUInt32 (n : UInt32) : Value := .integer (Int64.ofNat n.toNat)

/-- A missing value is null. -/
def ofOption : Option Value → Value := (·.getD .null)

instance : Coe Bool Value := ⟨.bool⟩

instance : Coe Int64 Value := ⟨.integer⟩

instance : Coe Int32 Value := ⟨ofInt32⟩

instance : Coe UInt32 Value := ⟨ofUInt32⟩

instance : Coe String Value := ⟨.text⟩

instance : Coe (List UInt8) Value := ⟨.bytes⟩

instance : Coe Timestamp Value := ⟨.timestamp⟩

end Value

end EntityStore

import EntityStore.Sql.Backend

/-!
The log of a build.

`recorder` is a backend whose builders hold nothing: making a builder, adding a
test and attaching a builder are only written down, in order, in a `CallLog`
that all builders share.  Of a test that is added the name of the call is kept,
with the table, the column and the operands that it was made with.  Builders are
told apart by their ids, and the text of a builder is its id, so the log shows
what was attached to what.
-/

namespace EntityStore.Sql

/-- What a recorded builder is for. -/
inductive BuilderRole where
  | root
  | and
  | or
  deriving DecidableEq

/-- The name of a role. -/
def BuilderRole.name : BuilderRole → String
  | .root => "root"
  | .and => "and"
  | .or => "or"

/-- The role of a builder made for a connective. -/
def Connective.role : Connective → BuilderRole
  | .and => .and
  | .or => .or

/-- A recorded builder: what it is for and its number in the order of creation;
the root has number 0. -/
structure BuilderId where
  role : BuilderRole
  number : Nat
  deriving DecidableEq

namespace BuilderId

/-- The builder that a build starts with. -/
def root : BuilderId := ⟨.root, 0⟩

/-- The written form of an id. -/
protected def toString (id : BuilderId) : String := id.role.name ++ "#" ++ toString id.number

instance : ToString BuilderId := ⟨BuilderId.toString⟩

end BuilderId

/-- What a call for a test says of the predicate: the name of the call and the
operands in order. -/
structure PredicateCall where
  name : String
  operands : List Value
  deriving DecidableEq

/-- A call for a test of a column. -/
structure SetterCall where
  table : String
  column : String
  predicate : PredicateCall
  deriving DecidableEq

/-- The name of the call. -/
def SetterCall.callName (call : SetterCall) : String := call.predicate.name

/-- What is called for a test; the name says whether points in time are compared. -/
def ColumnTest.setterCall (t : ColumnTest) : SetterCall :=
  let call (name : String) (operands : List Value) : SetterCall :=
    ⟨t.table, t.column, if t.comparesTime then name ++ "_as_time" else name, operands⟩
  match t.predicate with
  | .equals operand => call "equals" [operand]
  | .before limit => call "before" [limit]
  | .after limit => call "after" [limit]
  | .between first last => call "between" [first, last]
  | .oneOf operands => call "in_list" operands
  | .isNull => call "is_null" []
  | .isNotNull => call "is_not_null" []

/-- One recorded call. -/
inductive Call where
  /-- A builder was made. -/
  | created (builder : BuilderId)
  /-- A test was added to a builder. -/
  | set (builder : BuilderId) (call : SetterCall)
  /-- A fragment was attached to a builder; of the fragment its text is kept. -/
  | attached (builder : BuilderId) (source : String)
  deriving DecidableEq

/-- The calls so far, and how many builders have been made. -/
structure CallLog where
  calls : List Call
  created : Nat
  deriving DecidableEq

namespace CallLog

/-- The log without calls. -/
def empty : CallLog := ⟨[], 0⟩

/-- Writes down a call. -/
def record (log : CallLog) (call : Call) : CallLog := { log with calls := log.calls ++ [call] }

/-- The recorded calls for tests with the builders that they were made on. -/
def tests (log : CallLog) : List (BuilderId × SetterCall) :=
  log.calls.filterMap fun
    | .set builder call => some (builder, call)
    | _ => none

/-- The recorded attachments: the builder and the text of what was attached. -/
def attachments (log : CallLog) : List (BuilderId × String) :=
  log.calls.filterMap fun
    | .attached builder source => some (builder, source)
    | _ => none

/-- The number of builders made for a role. -/
def countCreated (log : CallLog) (role : BuilderRole) : Nat :=
  log.calls.countP fun
    | .created builder => builder.role == role
    | _ => false

end CallLog

/-- Conditions are built into recorded builders. -/
def recorder : Backend BuilderId CallLog where
  create connective log :=
    let builder : BuilderId := ⟨connective.role, log.created + 1⟩
    (builder, { log.record (.created builder) with created := log.created + 1 })
  add test builder log := (.ok (), builder, log.record (.set builder test.setterCall))
  attach source builder log := (builder, log.record (.attached builder source.text))
  fragment builder := ⟨toString builder, []⟩

/-- The log of building a condition, from the root on. -/
def recordBuild (scope : Scope) (condition : Condition) : Except QueryError Unit × CallLog :=
  match recorder.build scope condition BuilderId.root CallLog.empty with
  | (result, _, log) => (result, log)

end EntityStore.Sql

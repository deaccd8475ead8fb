import QueryBuilder.Duration
import QueryBuilder.Value

/-!
What can go wrong, from a builder step to the reply of a server, and the text of each failure.
-/

set_option autoImplicit false

namespace QueryBuilder

inductive ErrorKind where
  -- The shape of the statement is refused, at the step that would build it.
  | structural
  -- The statement is incomplete, as compiling shows.
  | compilation
  -- A step is used where it does not apply.
  | usage
  -- Markers and parameters do not match.
  | placeholder
  -- A connection, a statement sent to it, or the reading of a row.
  | driver
deriving DecidableEq, Repr

def ErrorKind.name : ErrorKind → String
  | .structural => "Structural"
  | .compilation => "Compilation"
  | .usage => "Usage"
  | .placeholder => "Placeholder"
  | .driver => "Driver"

inductive Error where
  | duplicateMainTable (aliasName existing : String)
  | duplicateAlias (aliasName : String)
  | noMainTable (statement : String)
  | aliasRequired (source : String)
  | invalidColumnType (what : String)
  | arrayInData (column : String)
  | invalidIdentifier (what : String)
  | noColumnsToSelect
  | noJoinConditions (aliasName : String)
  | noDataToInsert (table : String)
  | noDataToUpdate (table : String)
  | updateJoinWithoutFrom (table : String)
  | badQueryType (name : String)
  | badParamCount (fragment : String) (expected actual : Nat)
  | onlyStringConditionCanHaveParams (count : Nat)
  | unknownParam (name : String)
  | cantMutateAfterExecute
  | noParent
  | noQuery
  | badOffset (offset len : Nat)
  | missingParam (sql : String) (position : Nat)
  | extraParam (sql : String) (placeholders unused : Nat)
  | emptyArray (sql : String) (position : Nat)
  | connection (what : String)
  | queryFailed (sql : String) (params : List Value) (message : String)
  | notFound (what : String)
  | tooManyRows (expected got : Nat)
  | uniqueViolation (what : String)
  | foreignKeyViolation (what : String)
  | checkViolation (what : String)
  | decode (column message : String)
  | pool (what : String)
  | timeout (after : Duration)
  | transaction (what : String)
deriving Inhabited

namespace Error

def kind : Error → ErrorKind
  | duplicateMainTable .. | duplicateAlias .. | noMainTable .. | aliasRequired .. | invalidColumnType ..
  | arrayInData .. | invalidIdentifier .. => .structural
  | noColumnsToSelect | noJoinConditions .. | noDataToInsert .. | noDataToUpdate ..
  | updateJoinWithoutFrom .. | badQueryType .. | badParamCount .. => .compilation
  | onlyStringConditionCanHaveParams .. | unknownParam .. | cantMutateAfterExecute | noParent | noQuery
  | badOffset .. => .usage
  | missingParam .. | extraParam .. | emptyArray .. => .placeholder
  | _ => .driver

def name : Error → String
  | duplicateMainTable .. => "DuplicateMainTable"
  | duplicateAlias .. => "DuplicateAlias"
  | noMainTable .. => "NoMainTable"
  | aliasRequired .. => "AliasRequired"
  | invalidColumnType .. => "InvalidColumnType"
  | arrayInData .. => "ArrayInData"
  | invalidIdentifier .. => "InvalidIdentifier"
  | noColumnsToSelect => "NoColumnsToSelect"
  | noJoinConditions .. => "NoJoinConditions"
  | noDataToInsert .. => "NoDataToInsert"
  | noDataToUpdate .. => "NoDataToUpdate"
  | updateJoinWithoutFrom .. => "UpdateJoinWithoutFrom"
  | badQueryType .. => "BadQueryType"
  | badParamCount .. => "BadParamCount"
  | onlyStringConditionCanHaveParams .. => "OnlyStringConditionCanHaveParams"
  | unknownParam .. => "UnknownParam"
  | cantMutateAfterExecute => "CantMutateAfterExecute"
  | noParent => "NoParent"
  | noQuery => "NoQuery"
  | badOffset .. => "BadOffset"
  | missingParam .. => "MissingParam"
  | extraParam .. => "ExtraParam"
  | emptyArray .. => "EmptyArray"
  | connection .. => "Connection"
  | queryFailed .. => "QueryFailed"
  | notFound .. => "NotFound"
  | tooManyRows .. => "TooManyRows"
  | uniqueViolation .. => "UniqueViolation"
  | foreignKeyViolation .. => "ForeignKeyViolation"
  | checkViolation .. => "CheckViolation"
  | decode .. => "Decode"
  | pool .. => "Pool"
  | timeout .. => "Timeout"
  | transaction .. => "Transaction"

def message : Error → String
  | duplicateMainTable aliasName existing =>
      s!"Duplicate main table '{aliasName}': main table '{existing}' already registered"
  | duplicateAlias aliasName => s!"Duplicate table alias '{aliasName}'"
  | noMainTable statement => s!"No main table registered for {statement} query"
  | aliasRequired source => s!"Alias required for table source '{source}'"
  | invalidColumnType what => s!"Invalid column type: {what}"
  | arrayInData column =>
      s!"Array value for column '{column}' cannot be used as row data; bind it with Value::param"
  | invalidIdentifier what => s!"Invalid identifier: {what}"
  | noColumnsToSelect => "No columns to select"
  | noJoinConditions aliasName => s!"No join conditions for alias '{aliasName}'"
  | noDataToInsert table => s!"No data to insert into '{table}'"
  | noDataToUpdate table => s!"No data to update in '{table}'"
  | updateJoinWithoutFrom table => s!"UPDATE of '{table}' has joins but no FROM table"
  | badQueryType name => s!"Bad query type '{name}'"
  | badParamCount fragment expected actual =>
      s!"Bad param count in condition '{fragment}': expected {expected}, got {actual}"
  | onlyStringConditionCanHaveParams count =>
      s!"Only string conditions can have params (got {count} params)"
  | unknownParam name => s!"Unknown query param '{name}'"
  | cantMutateAfterExecute => "Can't mutate query after execute"
  | noParent => "Condition has no parent"
  | noQuery => "Condition is not attached to a query"
  | badOffset offset len => s!"Condition offset {offset} out of range (len {len})"
  | missingParam sql position => s!"Missing param for placeholder #{position} in '{sql}'"
  | extraParam sql placeholders unused =>
      s!"Extra params: {unused} unused after {placeholders} placeholders in '{sql}'"
  | emptyArray sql position => s!"Empty array bound at placeholder #{position} in '{sql}'"
  | connection what => s!"Connection error: {what}"
  | queryFailed sql _ message => s!"Query failed: {message} (sql: {sql})"
  | notFound what => s!"Not found: {what}"
  | tooManyRows expected got => s!"Too many rows: expected {expected}, got {got}"
  | uniqueViolation what => s!"Unique constraint violation: {what}"
  | foreignKeyViolation what => s!"Foreign key violation: {what}"
  | checkViolation what => s!"Check constraint violation: {what}"
  | decode column message => s!"Decode error on column '{column}': {message}"
  | pool what => s!"Pool error: {what}"
  | timeout after => s!"Query timeout after {after.write}"
  | transaction what => s!"Transaction error: {what}"

def isUniqueViolation : Error → Bool
  | uniqueViolation _ => true
  | _ => false

def isNotFound : Error → Bool
  | notFound _ => true
  | _ => false

def isTimeout : Error → Bool
  | timeout _ => true
  | _ => false

end Error

-- A computation on a state that answers or fails, and leaves a state behind either way.
abbrev Run (σ α : Type) := EStateM Error σ α

-- Runs on a part of the state, which is taken out and put back.
def Run.zoom {ε σ τ α : Type} (part : σ → τ) (put : σ → τ → σ) (run : EStateM ε τ α) : EStateM ε σ α := fun s =>
  match run (part s) with
  | .ok a t => .ok a (put s t)
  | .error e t => .error e (put s t)

end QueryBuilder

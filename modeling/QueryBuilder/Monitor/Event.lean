import QueryBuilder.Error
import QueryBuilder.Monitor.Kind
import QueryBuilder.Text.Clip

/-!
What a monitor is told: a statement starts, it is complete, it was slow.
-/

set_option autoImplicit false

namespace QueryBuilder

structure StatementContext where
  sql : String
  paramCount : Nat
  kind : StatementKind
  tag : Option String
deriving DecidableEq, Repr

namespace StatementContext

-- What is known of a statement from its text.
def ofSql (sql : String) (paramCount : Nat) : StatementContext :=
  ⟨sql, paramCount, .ofSql sql, none⟩

def tagged (c : StatementContext) (tag : String) : StatementContext :=
  { c with tag := some tag }

def ofCall (tag : Option String) (sql : String) (paramCount : Nat) : StatementContext :=
  match tag with
  | some tag => (ofSql sql paramCount).tagged tag
  | none => ofSql sql paramCount

end StatementContext

inductive Outcome where
  | rows (count : Nat)
  | affected (count : Nat)
  | optionalRow (found : Bool)
  | timedOut (after : Duration)
  | error (message : String)
deriving DecidableEq, Repr

namespace Outcome

def errorBudget : Nat := 512

-- An error of any length; a long one is clipped and marked with dots.
def ofMessage (message : String) : Outcome :=
  if message.utf8ByteSize ≤ errorBudget then .error message
  else .error (Text.clip message errorBudget ++ "...")

-- How a call ended that failed; a row that is not there is an answer and no error.
def ofError : Error → Outcome
  | .timeout after => .timedOut after
  | .notFound _ => .optionalRow false
  | other => ofMessage other.message

def isError : Outcome → Bool
  | .timedOut _ | .error _ => true
  | _ => false

def write : Outcome → String
  | .rows count => s!"{count} rows"
  | .affected count => s!"{count} affected"
  | .optionalRow found => if found then "1 row" else "0 rows"
  | .timedOut after => s!"timeout after {after.write}"
  | .error message => s!"error: {message}"

end Outcome

inductive Event where
  | start (context : StatementContext)
  | complete (context : StatementContext) (took : Duration) (outcome : Outcome)
  | slow (context : StatementContext) (took : Duration)
deriving DecidableEq, Repr

end QueryBuilder

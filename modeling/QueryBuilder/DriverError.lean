import QueryBuilder.Error

/-!
What the connection to the server reports, and what it becomes for the caller.

A server error under one of three codes is a violation of a constraint and gets an error of its own;
any other failure of a statement carries the statement.
-/

set_option autoImplicit false

namespace QueryBuilder

inductive DriverError where
  -- The server refused, under a code of five characters.
  | server (code : String) (constraint : Option String) (message : String)
  | closed
  -- The connection refused before anything was sent.
  | client (text : String)
deriving DecidableEq, Repr

namespace DriverError

def text : DriverError → String
  | server _ _ _ => "db error"
  | closed => "connection closed"
  | client text => text

def isClosed : DriverError → Bool
  | closed => true
  | _ => false

def violation? : (code : String) → Option (String → Error)
  | "23505" => some .uniqueViolation
  | "23503" => some .foreignKeyViolation
  | "23514" => some .checkViolation
  | _ => none

def ofStatement (sql : String) (params : List Value) (d : DriverError) : Error :=
  match d with
  | server code constraint message =>
      match violation? code with
      | some violation => violation ((constraint.getD "unknown") ++ ": " ++ message)
      | none => .queryFailed sql params d.text
  | _ => .queryFailed sql params d.text

def toError (d : DriverError) : Error :=
  if d.isClosed then .connection d.text else .queryFailed "" [] d.text

end DriverError

end QueryBuilder

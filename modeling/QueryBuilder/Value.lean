import QueryBuilder.Calendar
import QueryBuilder.DriverValue
import QueryBuilder.Json
import QueryBuilder.Uuid

/-!
Values, fragments, condition trees and queries.

The four are one family of types: a fragment carries values, a condition tree carries values at its
leaves, a query carries all of these, and a value may itself be a fragment or a query that is put in
the place of its marker. A fragment's text is in marker form: an unescaped `?` stands for the next
parameter and `\?` is a literal question mark.
-/

set_option autoImplicit false

namespace QueryBuilder

inductive Combinator where
  | and
  | or
deriving DecidableEq, Repr, Inhabited

namespace Combinator

def keyword : Combinator → String
  | .and => "AND"
  | .or => "OR"

end Combinator

inductive JoinKind where
  | inner
  | left
  | right
  | full
  | cross
deriving DecidableEq, Repr

namespace JoinKind

def keyword : JoinKind → String
  | .inner => "INNER JOIN"
  | .left => "LEFT JOIN"
  | .right => "RIGHT JOIN"
  | .full => "FULL JOIN"
  | .cross => "CROSS JOIN"

end JoinKind

-- What a registered table is to its statement: the main table, one more table of the FROM list,
-- or a joined one.
inductive TableRole where
  | main
  | listed
  | joined (kind : JoinKind)
deriving DecidableEq, Repr

inductive SetOperator where
  | union
  | unionAll
  | intersect
  | except
deriving DecidableEq, Repr

namespace SetOperator

def keyword : SetOperator → String
  | .union => "UNION"
  | .unionAll => "UNION ALL"
  | .intersect => "INTERSECT"
  | .except => "EXCEPT"

end SetOperator

inductive QueryKind where
  | select
  | insert
  | update
  | delete
  | truncate
deriving DecidableEq, Repr, Inhabited

mutual
inductive Value where
  | null
  | bool (b : Bool)
  | int (n : Int64)
  | float (x : Double)
  | text (s : String)
  | bytes (b : List UInt8)
  | json (j : Json)
  | uuid (u : Uuid)
  | date (d : Date)
  | timestamp (t : Timestamp)
  | timestampTz (t : Timestamp)
  | array (items : List Value)
  | param (p : DriverValue)
  | fragment (f : Fragment)
  | query (q : Query)

structure Fragment where
  text : String
  params : List Value
  tag : Option String

inductive Node where
  | leaf (text : String) (params : List Value)
  | branch (c : Condition)

structure Condition where
  combinator : Combinator
  children : List Node

-- Literal text, or a value put in like any other.
inductive Expr where
  | raw (text : String)
  | value (v : Value)

structure SelectItem where
  aliasName : Option String
  expr : Expr

inductive TableSource where
  | name (s : String)
  | fragment (f : Fragment)
  | query (q : Query)

structure Table where
  aliasName : String
  source : TableSource
  role : TableRole

structure SetOperation where
  operator : SetOperator
  operand : Value

structure Cell where
  column : String
  value : Value

-- The ON tree kept for an alias, whether or not a table of that alias is joined.
structure JoinTree where
  aliasName : String
  tree : Condition

-- All that a query has been told. `main` names the main table by its alias; `leading` and
-- `trailing` are the fragments before and after the statement.
structure Query where
  kind : QueryKind
  items : List SelectItem
  distinct : Bool
  tables : List Table
  main : Option String
  joinTrees : List JoinTree
  whereTree : Option Condition
  groupBy : List Expr
  havingTree : Option Condition
  orderBy : List Expr
  limit : Option Int64
  offset : Option Int64
  setOperations : List SetOperation
  columns : List String
  source : Option Query
  returning : List SelectItem
  data : List Cell
  rows : List (List Cell)
  leading : List Fragment
  trailing : List Fragment
end

instance : Inhabited Value := ⟨.null⟩

-- Column and value pairs, a column at most once, in the order the columns were first seen.
abbrev DataRow := List Cell

-- A statement in its final form, the markers numbered `$1`, `$2`, and so on.
structure Compiled where
  sql : String
  params : List Value

namespace Value

def isNull : Value → Bool
  | .null => true
  | _ => false

-- The shapes that a lone parameter of a condition completes to `IN (?)`.
def isListLike : Value → Bool
  | .array _ | .query _ => true
  | _ => false

def describe : Value → String
  | .null => "null"
  | .bool _ => "bool"
  | .int _ => "int"
  | .float _ => "float"
  | .text _ => "text"
  | .bytes _ => "bytes"
  | .json _ => "json"
  | .uuid _ => "uuid"
  | .date _ => "date"
  | .timestamp _ => "timestamp"
  | .timestampTz _ => "timestamptz"
  | .array _ => "array"
  | .param _ => "param"
  | .fragment _ => "sql fragment"
  | .query _ => "sub-query"

end Value

namespace QueryKind

def keyword : QueryKind → String
  | .select => "SELECT"
  | .insert => "INSERT"
  | .update => "UPDATE"
  | .delete => "DELETE"
  | .truncate => "TRUNCATE"

end QueryKind

def Query.empty (kind : QueryKind) : Query where
  kind
  items := []
  distinct := false
  tables := []
  main := none
  joinTrees := []
  whereTree := none
  groupBy := []
  havingTree := none
  orderBy := []
  limit := none
  offset := none
  setOperations := []
  columns := []
  source := none
  returning := []
  data := []
  rows := []
  leading := []
  trailing := []

instance : Inhabited Query := ⟨.empty .select⟩

end QueryBuilder

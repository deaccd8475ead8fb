import QueryBuilder.Query.Statement
import QueryBuilder.Text.Blank

/-!
Changes to a query.

A change looks at the query as it stands and either gives the query after it or refuses. What a
builder call does is a short list of changes, made one after the other up to the first refusal.
-/

set_option autoImplicit false

namespace QueryBuilder

abbrev Change := Query → Except Error Query

inductive Slot where
  | where_
  | having
  | on (aliasName : String)
deriving DecidableEq, Repr

inductive Field where
  | select
  | distinct
  | tables
  | joins
  | where_
  | groupBy
  | having
  | orderBy
  | limit
  | offset
  | combine
  | columns
  | source
  | returning
  | data
  | rows
  | leading
  | trailing
deriving DecidableEq, Repr

namespace Field

def name : Field → String
  | .select => "Select"
  | .distinct => "Distinct"
  | .tables => "Tables"
  | .joins => "Joins"
  | .where_ => "Where"
  | .groupBy => "GroupBy"
  | .having => "Having"
  | .orderBy => "OrderBy"
  | .limit => "Limit"
  | .offset => "Offset"
  | .combine => "Combine"
  | .columns => "Columns"
  | .source => "Source"
  | .returning => "Returning"
  | .data => "Data"
  | .rows => "Rows"
  | .leading => "Prefix"
  | .trailing => "Suffix"

def parse : String → Except Error Field
  | "select" => .ok .select
  | "distinct" => .ok .distinct
  | "table" | "tables" => .ok .tables
  | "join" | "joins" => .ok .joins
  | "where" => .ok .where_
  | "group" | "group_by" => .ok .groupBy
  | "having" => .ok .having
  | "order" | "order_by" => .ok .orderBy
  | "limit" => .ok .limit
  | "offset" => .ok .offset
  | "combine" => .ok .combine
  | "columns" => .ok .columns
  | "source" => .ok .source
  | "returning" => .ok .returning
  | "data" => .ok .data
  | "rows" => .ok .rows
  | "prefix" => .ok .leading
  | "suffix" => .ok .trailing
  | name => .error (.unknownParam name)

end Field

-- Reads the name of a statement kind, blanks around it and the case of its letters aside.
def QueryKind.parse (name : String) : Except Error QueryKind :=
  match String.ofList ((Text.trim name.toList).map Char.toLower) with
  | "select" => .ok .select
  | "insert" => .ok .insert
  | "update" => .ok .update
  | "delete" => .ok .delete
  | "truncate" => .ok .truncate
  | _ => .error (.badQueryType name)

namespace TableSource

def ofValue : Value → Except Error TableSource
  | .text s => .ok (.name s)
  | .fragment f => .ok (.fragment f)
  | .query q => .ok (.query q)
  | other => .error (.invalidColumnType s!"{other.describe} cannot be used as a table source")

def describe : TableSource → String
  | .name s => s
  | .fragment f => f.text
  | .query _ => "sub-query"

-- The alias of a table that is given none: only a plain name has one of its own.
def ownAlias : TableSource → Except Error String
  | .name s => .ok s
  | other => .error (.aliasRequired other.describe)

end TableSource

namespace DataRow

-- Writes a value into its column: over the old value, or behind the last column.
def put (row : DataRow) (c : Cell) : DataRow :=
  match row with
  | [] => [c]
  | d :: rest => if d.column = c.column then ⟨d.column, c.value⟩ :: rest else d :: put rest c

def merge (row : DataRow) (cells : List Cell) : DataRow :=
  cells.foldl put row

-- A cell that data may hold: an identifier for its column and no array for its value.
def check (c : Cell) : Except Error Cell :=
  match Ident.parse c.column with
  | .error e => .error e
  | .ok _ =>
      match c.value with
      | .array _ => .error (.arrayInData c.column)
      | _ => .ok c

-- The row that a list of cells gives, later cells of a column winning.
def ofCells (row : DataRow) : List Cell → Except Error DataRow
  | [] => .ok row
  | c :: cs =>
      match check c with
      | .error e => .error e
      | .ok c => ofCells (row.put c) cs

def ofLists : List (List Cell) → Except Error (List DataRow)
  | [] => .ok []
  | cells :: rest =>
      match ofCells [] cells with
      | .error e => .error e
      | .ok row => (ofLists rest).map fun rows => row :: rows

end DataRow

def checkColumns : List String → Except Error (List String)
  | [] => .ok []
  | name :: names =>
      match Ident.parse name with
      | .error e => .error e
      | .ok _ => (checkColumns names).map fun rest => name :: rest

-- Puts a tree under its alias, in place of an older one.
def putJoinTree (aliasName : String) (tree : Condition) : List JoinTree → List JoinTree
  | [] => [⟨aliasName, tree⟩]
  | j :: rest => if j.aliasName = aliasName then ⟨aliasName, tree⟩ :: rest else j :: putJoinTree aliasName tree rest

namespace Query

-- The query whose main table is a plain name.
def ofTable (kind : QueryKind) (table : String) : Query :=
  { empty kind with main := some table, tables := [⟨table, .name table, .main⟩] }

def tree? (q : Query) : Slot → Option Condition
  | .where_ => q.whereTree
  | .having => q.havingTree
  | .on aliasName => q.joinTree? aliasName

-- The tree of a slot; one that is not there yet is an empty AND.
def tree (q : Query) (slot : Slot) : Condition :=
  (q.tree? slot).getD (.empty .and)

def putTree (q : Query) (slot : Slot) (c : Condition) : Query :=
  match slot with
  | .where_ => { q with whereTree := some c }
  | .having => { q with havingTree := some c }
  | .on aliasName => { q with joinTrees := putJoinTree aliasName c q.joinTrees }

def openTree (q : Query) (slot : Slot) : Query :=
  q.putTree slot (q.tree slot)

-- The next table, once its source, its alias and its role are found to fit.
def newTable (q : Query) (source : Value) (aliasName : Option String) (role : TableRole) : Except Error Table :=
  match TableSource.ofValue source with
  | .error e => .error e
  | .ok source =>
      match aliasName.map Except.ok |>.getD source.ownAlias with
      | .error e => .error e
      | .ok aliasName =>
          match role, q.main with
          | .main, some existing => .error (.duplicateMainTable aliasName existing)
          | _, _ =>
              match q.table? aliasName with
              | some _ => .error (.duplicateAlias aliasName)
              | none => .ok ⟨aliasName, source, role⟩

def register (q : Query) (t : Table) : Query :=
  { q with
    tables := q.tables ++ [t]
    main := if t.role = .main then some t.aliasName else q.main }

def reset (q : Query) : Field → Query
  | .select => { q with items := [] }
  | .distinct => { q with distinct := false }
  | .tables => { q with tables := [], main := none }
  | .joins => { q with joinTrees := [] }
  | .where_ => { q with whereTree := none }
  | .groupBy => { q with groupBy := [] }
  | .having => { q with havingTree := none }
  | .orderBy => { q with orderBy := [] }
  | .limit => { q with limit := none }
  | .offset => { q with offset := none }
  | .combine => { q with setOperations := [] }
  | .columns => { q with columns := [] }
  | .source => { q with source := none }
  | .returning => { q with returning := [] }
  | .data => { q with data := [] }
  | .rows => { q with rows := [] }
  | .leading => { q with leading := [] }
  | .trailing => { q with trailing := [] }

end Query

namespace Change

def always (f : Query → Query) : Change :=
  fun q => .ok (f q)

def addTable (source : Value) (aliasName : Option String) (role : TableRole) : Change :=
  fun q => (q.newTable source aliasName role).map q.register

-- The first table of a FROM list is the main table.
def addListedTable (source : Value) (aliasName : Option String) : Change :=
  fun q => addTable source aliasName (if q.main.isSome then .listed else .main) q

def setKind (kind : QueryKind) : Change :=
  always fun q => { q with kind }

def openTree (slot : Slot) : Change :=
  always fun q => q.openTree slot

def addCondition (slot : Slot) (cond : Cond) (params : List Value) : Change :=
  fun q => ((q.tree slot).add cond params).map (q.putTree slot)

-- An item whose alias can be written between quotes.
def namedItem (aliasName : String) (expr : Expr) : Except Error SelectItem :=
  (Ident.quoted aliasName).map fun _ => ⟨some aliasName, expr⟩

def combine (operator : SetOperator) (operand : Value) : Change :=
  fun q =>
    match operand with
    | .query _ | .fragment _ => .ok { q with setOperations := q.setOperations ++ [⟨operator, operand⟩] }
    | other => .error (.invalidColumnType s!"{other.describe} cannot be combined with {operator.keyword}")

end Change

inductive Call where
  | table (source : Value) (aliasName : Option String)
  | listTable (source : Value) (aliasName : Option String)
  | join (kind : JoinKind) (source : Value) (aliasName : Option String) (on : Option Cond)
  | addCondition (slot : Slot) (cond : Cond) (params : List Value)
  | select (exprs : List Expr)
  | selectAs (aliasName : String) (expr : Expr)
  | distinct (on : Bool)
  | groupBy (exprs : List Expr)
  | orderBy (exprs : List Expr)
  | limit (n : Int64)
  | offset (n : Int64)
  | combine (operator : SetOperator) (operand : Value)
  | insert (table : Value)
  | update (table : Value)
  | delete (table : Value)
  | truncate (table : Value)
  | columns (names : List String)
  | values (cells : List Cell)
  | rows (rows : List (List Cell))
  | selectSource (source : Query)
  | returning (exprs : List Expr)
  | returningAs (aliasName : String) (expr : Expr)
  | leading (f : Fragment)
  | trailing (f : Fragment)
  | reset (name : String)
  | resetField (field : Field)
  | setQueryType (name : String)

namespace Call

-- The alias that a joined table is registered under, when it is registered.
def joinAlias (source : Value) : Option String → String
  | some aliasName => aliasName
  | none =>
      match source with
      | .text name => name
      | _ => ""

-- Turns the query into a statement of a kind on a table, in this order.
def retarget (kind : QueryKind) (table : Value) : List Change :=
  [.setKind kind, .addTable table none .main]

def changes : Call → List Change
  | table source aliasName => [.addTable source aliasName .main]
  | listTable source aliasName => [.addListedTable source aliasName]
  | join kind source aliasName none => [.addTable source aliasName (.joined kind)]
  | join kind source aliasName (some on) =>
      let slot := Slot.on (joinAlias source aliasName)
      [.addTable source aliasName (.joined kind), .openTree slot, .addCondition slot on []]
  | addCondition slot cond params => [.openTree slot, .addCondition slot cond params]
  | select exprs => [.always fun q => { q with items := q.items ++ exprs.map (SelectItem.mk none) }]
  | selectAs aliasName expr => [fun q => (Change.namedItem aliasName expr).map fun i => { q with items := q.items ++ [i] }]
  | distinct on => [.always fun q => { q with distinct := on }]
  | groupBy exprs => [.always fun q => { q with groupBy := q.groupBy ++ exprs }]
  | orderBy exprs => [.always fun q => { q with orderBy := q.orderBy ++ exprs }]
  | limit n => [.always fun q => { q with limit := some n }]
  | offset n => [.always fun q => { q with offset := some n }]
  | combine operator operand => [.combine operator operand]
  | insert target => retarget .insert target
  | update target => retarget .update target
  | delete target => retarget .delete target
  | truncate target => retarget .truncate target
  | columns names => [fun q => (checkColumns names).map fun names => { q with columns := q.columns ++ names }]
  | values cells => [fun q => (DataRow.ofCells [] cells).map fun row => { q with data := DataRow.merge q.data row }]
  | rows lists => [fun q => (DataRow.ofLists lists).map fun rows => { q with rows := q.rows ++ rows }]
  | selectSource source => [.always fun q => { q with source := some source }]
  | returning exprs => [.always fun q => { q with returning := q.returning ++ exprs.map (SelectItem.mk none) }]
  | returningAs aliasName expr =>
      [fun q => (Change.namedItem aliasName expr).map fun i => { q with returning := q.returning ++ [i] }]
  | leading f => [.always fun q => { q with leading := q.leading ++ [f] }]
  | trailing f => [.always fun q => { q with trailing := q.trailing ++ [f] }]
  | reset name => [fun q => (Field.parse name).map q.reset]
  | resetField field => [.always fun q => q.reset field]
  | setQueryType name => [fun q => (QueryKind.parse name).map fun kind => { q with kind }]

end Call

end QueryBuilder

import QueryBuilder.Condition

/-!
The statement of a query in marker form.

Each kind of statement is a list of clauses in a fixed order, and its fragment is their
concatenation; the order of the clauses is therefore the order of the parameters. The first clause
that fails fails the statement.
-/

set_option autoImplicit false

namespace QueryBuilder

-- Concatenates clauses up to the first that fails.
def clauses : List (Except Error Fragment) → Except Error Fragment
  | [] => .ok .empty
  | .error e :: _ => .error e
  | .ok f :: rest => (clauses rest).map fun g => f ++ g

-- A value in a list of expressions or data: booleans become literal text and sub-queries stand in
-- parentheses.
def valueFragment : Value → Fragment
  | .bool true => .literal "TRUE"
  | .bool false => .literal "FALSE"
  | .query q => .literal "(" ++ .hole (.query q) ++ .literal ")"
  | v => .hole v

namespace Expr

def fragment : Expr → Fragment
  | .raw text => .literal text
  | .value v => valueFragment v

-- The column that an item without alias names: the last part, when its text is an identifier.
def column? : Expr → Option Ident
  | .raw text =>
      match Ident.parse text with
      | .ok i => i.parts.getLast?.map fun part => ⟨[part]⟩
      | .error _ => none
  | .value _ => none

end Expr

def SelectItem.fragment (item : SelectItem) : Except Error Fragment :=
  match item.aliasName with
  | none => .ok item.expr.fragment
  | some aliasName => (Ident.quoted aliasName).map fun i => item.expr.fragment ++ .literal " AS " ++ .ident i

-- The column an item gives to an INSERT that reads from a query.
def SelectItem.column? (item : SelectItem) : Option Ident :=
  match item.aliasName with
  | some aliasName => (Ident.quoted aliasName).toOption
  | none => item.expr.column?

def itemList : List SelectItem → Except Error (List Fragment)
  | [] => .ok []
  | item :: rest =>
      match item.fragment with
      | .error e => .error e
      | .ok f => (itemList rest).map fun fs => f :: fs

def itemsFragment (items : List SelectItem) : Except Error Fragment :=
  (itemList items).map (.joinWith ", ")

def exprsFragment (exprs : List Expr) : Fragment :=
  .joinWith ", " (exprs.map Expr.fragment)

-- A clause of expressions, left out when there are none.
def exprsClause (keyword : String) (exprs : List Expr) : Fragment :=
  if exprs.isEmpty then .empty else .literal keyword ++ exprsFragment exprs

-- A clause of conditions, left out when the tree is absent or blank.
def conditionClause (keyword : String) : Option Condition → Except Error Fragment
  | none => .ok .empty
  | some c => if c.isBlank then .ok .empty else c.toFragment.map fun f => .literal keyword ++ f

namespace Table

-- A table with its alias; a name that is its own alias is not repeated.
def fragment (t : Table) : Fragment :=
  let aliasName := .literal " AS " ++ .literal t.aliasName
  match t.source with
  | .name name => if name = t.aliasName then .literal name else .literal name ++ aliasName
  | .fragment f => .hole (.fragment f) ++ aliasName
  | .query q => .literal "(" ++ .hole (.query q) ++ .literal ")" ++ aliasName

-- The target of INSERT and TRUNCATE, where a name takes no alias.
def target (t : Table) : Fragment :=
  match t.source with
  | .name name => .literal name
  | _ => t.fragment

end Table

namespace DataRow

def get? (row : DataRow) (column : String) : Option Value :=
  (row.find? fun c => c.column == column).map Cell.value

-- The value of each named column, `DEFAULT` where the row has none.
def tuple (names : List String) (row : DataRow) : Fragment :=
  parenthesized <| .joinWith ", " <| names.map fun name =>
    match get? row name with
    | some v => valueFragment v
    | none => .literal "DEFAULT"

end DataRow

def addColumns : (names : List String) → DataRow → List String
  | names, [] => names
  | names, c :: cs => addColumns (if names.contains c.column then names else names ++ [c.column]) cs

-- The columns of all rows, in the order they are first seen.
def collectColumns (rows : List DataRow) : List String :=
  rows.foldl addColumns []

def parseColumns : List String → Except Error (List Ident)
  | [] => .ok []
  | name :: names =>
      match Ident.parse name with
      | .error e => .error e
      | .ok i => (parseColumns names).map fun is => i :: is

-- The columns of an INSERT that the items of its source name; none unless all of them do.
def inferColumns (items : List SelectItem) : List Ident :=
  (items.mapM SelectItem.column?).getD []

def columnList (columns : List Ident) : Fragment :=
  if columns.isEmpty then .empty else parenthesized (.joinWith ", " (columns.map .ident))

namespace Query

def table? (q : Query) (aliasName : String) : Option Table :=
  q.tables.find? fun t => t.aliasName == aliasName

def mainTable? (q : Query) : Option Table :=
  q.main.bind q.table?

def withMain (q : Query) (statement : Table → Except Error Fragment) : Except Error Fragment :=
  match q.mainTable? with
  | some t => statement t
  | none => .error (.noMainTable q.kind.keyword)

def listedTables (q : Query) : List Table :=
  q.tables.filter fun t => t.role == .listed

def joinTree? (q : Query) (aliasName : String) : Option Condition :=
  (q.joinTrees.find? fun j => j.aliasName == aliasName).map JoinTree.tree

def leadingClause (q : Query) : Fragment :=
  .concat (q.leading.map fun f => f.untagged ++ .literal " ")

def trailingClause (q : Query) : Fragment :=
  .concat (q.trailing.map fun f => .literal " " ++ f.untagged)

-- Every join but a CROSS JOIN needs conditions.
def onClause (q : Query) (kind : JoinKind) (aliasName : String) : Except Error Fragment :=
  if kind = .cross then .ok .empty
  else
    match q.joinTree? aliasName with
    | none => .error (.noJoinConditions aliasName)
    | some c => if c.isBlank then .error (.noJoinConditions aliasName) else conditionClause " ON " (some c)

def joinClause (q : Query) (t : Table) : Except Error Fragment :=
  match t.role with
  | .joined kind =>
      (q.onClause kind t.aliasName).map fun on =>
        .literal " " ++ .literal kind.keyword ++ .literal " " ++ t.fragment ++ on
  | _ => .ok .empty

-- The joins in the order of their registration.
def joinsClause (q : Query) : Except Error Fragment :=
  clauses (q.tables.map q.joinClause)

def fromClause (q : Query) : Except Error Fragment :=
  if q.tables.isEmpty then .ok .empty
  else
    q.withMain fun t => clauses [
      .ok (.literal " FROM " ++ t.fragment ++ .concat (q.listedTables.map fun l => .literal ", " ++ l.fragment)),
      q.joinsClause]

def limitClause (q : Query) : Fragment :=
  match q.limit with
  | some n => .limitClause n
  | none => .empty

def offsetClause (q : Query) : Fragment :=
  match q.offset with
  | some n => .offsetClause n
  | none => .empty

def setOperationsClause (q : Query) : Fragment :=
  .concat <| q.setOperations.map fun s =>
    .literal " " ++ .literal s.operator.keyword ++ .literal " (" ++ .hole s.operand ++ .literal ")"

def returningClause (q : Query) : Except Error Fragment :=
  if q.returning.isEmpty then .ok .empty
  else (itemsFragment q.returning).map fun f => .literal " RETURNING " ++ f

def selectStatement (q : Query) : Except Error Fragment :=
  if q.items.isEmpty then .error .noColumnsToSelect
  else clauses [
    .ok q.leadingClause,
    .ok (.literal (if q.distinct then "SELECT DISTINCT " else "SELECT ")),
    itemsFragment q.items,
    q.fromClause,
    conditionClause " WHERE " q.whereTree,
    .ok (exprsClause " GROUP BY " q.groupBy),
    conditionClause " HAVING " q.havingTree,
    .ok (exprsClause " ORDER BY " q.orderBy),
    .ok q.limitClause,
    .ok q.offsetClause,
    .ok q.setOperationsClause,
    .ok q.trailingClause]

def rowsToInsert (q : Query) : List DataRow :=
  (q.data :: q.rows).filter fun row => !row.isEmpty

def sourceColumns (q source : Query) : Except Error (List Ident) :=
  if q.columns.isEmpty then .ok (inferColumns source.items) else parseColumns q.columns

def insertedNames (q : Query) : List String :=
  if q.columns.isEmpty then collectColumns q.rowsToInsert else q.columns

-- What is inserted: the columns with the statement of the source, or with the rows.
def insertedClause (q : Query) (table : Table) (sourceText : Option (Except Error Fragment)) : Except Error Fragment :=
  match q.source, sourceText with
  | some source, some text => clauses [
      (q.sourceColumns source).map columnList,
      .ok (.literal " "),
      text.map .untagged]
  | _, _ =>
      if q.rowsToInsert.isEmpty then .error (.noDataToInsert table.aliasName)
      else clauses [
        (parseColumns q.insertedNames).map columnList,
        .ok (.literal " VALUES" ++ .joinWith ", " (q.rowsToInsert.map (DataRow.tuple q.insertedNames)))]

def insertStatement (q : Query) (sourceText : Option (Except Error Fragment)) : Except Error Fragment :=
  q.withMain fun t => clauses [
    .ok (q.leadingClause ++ .literal "INSERT INTO " ++ t.target),
    q.insertedClause t sourceText,
    .ok q.trailingClause,
    q.returningClause]

def assignment (c : Cell) : Except Error Fragment :=
  (Ident.parse c.column).map fun i => .ident i ++ .literal " = " ++ valueFragment c.value

def assignments : DataRow → Except Error (List Fragment)
  | [] => .ok []
  | c :: cs =>
      match assignment c with
      | .error e => .error e
      | .ok f => (assignments cs).map fun fs => f :: fs

def hasJoins (q : Query) : Bool :=
  q.tables.any fun t => match t.role with
    | .joined _ => true
    | _ => false

-- The FROM list of an UPDATE, which joins hang off and cannot do without.
def updateFromClause (q : Query) (table : Table) : Except Error Fragment :=
  if q.listedTables.isEmpty then
    if q.hasJoins then .error (.updateJoinWithoutFrom table.aliasName) else .ok .empty
  else .ok (.literal " FROM " ++ .joinWith ", " (q.listedTables.map Table.fragment))

def updateStatement (q : Query) : Except Error Fragment :=
  q.withMain fun t =>
    if q.data.isEmpty then .error (.noDataToUpdate t.aliasName)
    else clauses [
      .ok (q.leadingClause ++ .literal "UPDATE " ++ t.fragment ++ .literal " SET "),
      (assignments q.data).map (.joinWith ", "),
      q.updateFromClause t,
      q.joinsClause,
      conditionClause " WHERE " q.whereTree,
      .ok q.trailingClause,
      q.returningClause]

def deleteStatement (q : Query) : Except Error Fragment :=
  q.withMain fun t => clauses [
    .ok (q.leadingClause ++ .literal "DELETE FROM " ++ t.fragment),
    conditionClause " WHERE " q.whereTree,
    .ok q.trailingClause,
    q.returningClause]

def truncateStatement (q : Query) : Except Error Fragment :=
  q.withMain fun t => .ok (.literal "TRUNCATE " ++ t.target ++ q.trailingClause)

-- The statement, given the one of its source.
def statement (q : Query) (sourceText : Option (Except Error Fragment)) : Except Error Fragment :=
  match q.kind with
  | .select => q.selectStatement
  | .insert => q.insertStatement sourceText
  | .update => q.updateStatement
  | .delete => q.deleteStatement
  | .truncate => q.truncateStatement

end Query

mutual
-- The statement in marker form, its sub-queries still values.
def Query.toFragment : Query → Except Error Fragment
  | q@⟨_, _, _, _, _, _, _, _, _, _, _, _, _, _, source, _, _, _, _, _⟩ => q.statement (sourceFragment source)
termination_by structural x => x

def sourceFragment : Option Query → Option (Except Error Fragment)
  | none => none
  | some q => some q.toFragment
termination_by structural x => x
end

theorem Query.toFragment_eq (q : Query) : q.toFragment = q.statement (q.source.map Query.toFragment) := by
  obtain ⟨_, _, _, _, _, _, _, _, _, _, _, _, _, _, source, _, _, _, _, _⟩ := q
  cases source <;> simp [Query.toFragment, sourceFragment]

end QueryBuilder

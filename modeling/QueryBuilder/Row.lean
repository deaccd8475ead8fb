import QueryBuilder.Error
import QueryBuilder.Text.Blank
import QueryBuilder.Value.Wire

/-!
Result rows and typed access to their columns.

A column is found by its position or its name, a name first as it is written and then without regard
to ASCII case; of several columns that fit, the first one is taken. What a caller wants has to have
the type of the column, and a null goes only where null is wanted too.
-/

set_option autoImplicit false

namespace QueryBuilder

inductive Scalar where
  | null
  | int (n : Int)
  | bool (b : Bool)
  | text (s : String)
deriving DecidableEq, Repr

structure Column where
  name : String
  type : PgType
deriving DecidableEq, Repr

structure Row where
  columns : List Column
  cells : List Scalar
deriving DecidableEq, Repr

structure Want where
  type : PgType
  nullable : Bool
deriving DecidableEq, Repr

namespace Row

def named (r : Row) : List (String × Scalar) :=
  (r.columns.map Column.name).zip r.cells

def sameName (a b : String) : Bool :=
  a.toLower == b.toLower

def position? (r : Row) (name : String) : Option Nat :=
  (r.columns.findIdx? fun c => c.name == name) <|> (r.columns.findIdx? fun c => sameName c.name name)

def unknownColumn (name : String) : String :=
  "invalid column `" ++ name ++ "`"

def unreadable (index : Nat) : String :=
  s!"error deserializing column {index}"

-- The cell at a position, or what is wrong with it.
def cell (r : Row) (want : Want) (index : Nat) : Except String Scalar :=
  match r.columns[index]?, r.cells[index]? with
  | some column, some value =>
      if column.type = want.type ∧ (want.nullable ∨ value ≠ .null) then .ok value
      else .error (unreadable index)
  | _, _ => .error (unknownColumn (toString index))

def byName (r : Row) (want : Want) (name : String) : Except Error Scalar :=
  match r.position? name with
  | some index => (r.cell want index).mapError (Error.decode name)
  | none => .error (.decode name (unknownColumn name))

def byIndex (r : Row) (want : Want) (index : Nat) : Except Error Scalar :=
  (r.cell want index).mapError (Error.decode s!"#{index}")

-- Reads the first column, the only one of a scalar result.
def scalar (r : Row) (want : Want) : Except Error Scalar :=
  (r.cell want 0).mapError (Error.decode "0")

-- Reads the columns from `index` on, one for each want, up to the first that fails.
def fromIndex (r : Row) : (index : Nat) → List Want → Except Error (List Scalar)
  | _, [] => .ok []
  | index, want :: wants =>
      match r.byIndex want index with
      | .error e => .error e
      | .ok value => (fromIndex r (index + 1) wants).map fun values => value :: values

def tuple (wants : List Want) (r : Row) : Except Error (List Scalar) :=
  r.fromIndex 0 wants

end Row

-- A reading of rows as values of a type.
abbrev RowReader (α : Type) := Row → Except Error α

namespace RowReader

-- Reads rows in order up to the first that cannot be read.
def all {α : Type} (read : RowReader α) : List Row → Except Error (List α)
  | [] => .ok []
  | r :: rest =>
      match read r with
      | .error e => .error e
      | .ok a => (all read rest).map fun as => a :: as

def optional {α : Type} (read : RowReader α) : Option Row → Except Error (Option α)
  | none => .ok none
  | some r => (read r).map some

end RowReader

end QueryBuilder

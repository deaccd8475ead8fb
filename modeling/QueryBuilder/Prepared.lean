import QueryBuilder.Client
import QueryBuilder.Numbering
import QueryBuilder.Text.Noise

/-!
Statements ready to run: a compiled form and the tag that every run of it carries.
-/

set_option autoImplicit false

namespace QueryBuilder

structure Prepared where
  compiled : Compiled
  tag : Option String

namespace Prepared

-- A compiled statement has no tag of its own.
def ofCompiled (c : Compiled) : Prepared :=
  ⟨c, none⟩

def ofFragment (f : Fragment) : Except Error Prepared :=
  f.compile.map fun c => ⟨c, f.tag⟩

def ofQuery (q : Query) : Except Error Prepared :=
  q.compile.map ofCompiled

def tagged (p : Prepared) (tag : String) : Prepared :=
  ⟨p.compiled, some tag⟩

variable {σ : Type} (client : Client σ) (p : Prepared)

def fetchAll : Run σ (List Row) :=
  client.query p.tag p.compiled.sql p.compiled.params

def fetchOne : Run σ Row :=
  client.queryOne p.tag p.compiled.sql p.compiled.params

def fetchOneStrict : Run σ Row :=
  client.queryOneStrict p.tag p.compiled.sql p.compiled.params

def fetchOpt : Run σ (Option Row) :=
  client.queryOpt p.tag p.compiled.sql p.compiled.params

def execute : Run σ Nat :=
  client.execute p.tag p.compiled.sql p.compiled.params

def stream (client : StreamingClient σ) (p : Prepared) : Run σ (List (Except Error Row)) :=
  client.stream p.tag p.compiled.sql p.compiled.params

def fetchAllAs {α : Type} (read : RowReader α) : Run σ (List α) :=
  Client.andThen (p.fetchAll client) read.all

def fetchOneAs {α : Type} (read : RowReader α) : Run σ α :=
  Client.andThen (p.fetchOne client) read

def fetchOptAs {α : Type} (read : RowReader α) : Run σ (Option α) :=
  Client.andThen (p.fetchOpt client) read.optional

def fetchScalarOne (want : Want) : Run σ Scalar :=
  p.fetchOneAs client fun row => row.scalar want

def fetchScalarAll (want : Want) : Run σ (List Scalar) :=
  p.fetchAllAs client fun row => row.scalar want

-- A statement without blanks at its end and without one semicolon there.
def body (sql : String) : List Char :=
  let text := Text.trimEnd sql.toList
  match text.getLast? with
  | some ';' => Text.trimEnd text.dropLast
  | _ => text

-- Whether a statement may stand inside `EXISTS`, as far as its first word tells.
def isSelection (text : List Char) : Bool :=
  Text.opensWith "SELECT" text || Text.opensWith "WITH" text

def existence (text : List Char) : String :=
  "SELECT EXISTS(" ++ String.ofList text ++ ")"

def noSelection : String :=
  "exists() only works with SELECT statements (including WITH ... SELECT)"

def wantFlag : Want :=
  ⟨.bool, false⟩

def hasRow : Run σ Bool :=
  let text := body p.compiled.sql
  if isSelection text then
    Client.andThen (client.queryOne p.tag (existence text) p.compiled.params) fun row =>
      (row.scalar wantFlag).map fun value => value == .bool true
  else fun s => .error (.queryFailed (String.ofList text) p.compiled.params noSelection) s

end Prepared

end QueryBuilder

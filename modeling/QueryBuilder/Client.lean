import QueryBuilder.DriverError
import QueryBuilder.Row

/-!
Clients: what runs compiled statements and hands back rows and counts.

A link is the bare connection: it sends a statement or a plain command and reports what came back. A
client is what callers see. Every call of a client may carry a tag, which says to a monitor what the
statement is for; a client on a link has no use for it.
-/

set_option autoImplicit false

namespace QueryBuilder

-- What came back for a statement: its rows, its count, and an error that came behind the rows.
structure Reply where
  rows : List Row
  count : Nat
  late : Option DriverError

def Reply.empty : Reply :=
  ⟨[], 0, none⟩

-- A connection, as state transitions on what stands behind it.
structure Link (σ : Type) where
  send : String → List Value → EStateM DriverError σ Reply
  command : String → EStateM DriverError σ Unit

structure Client (σ : Type) where
  query : Option String → String → List Value → Run σ (List Row)
  queryOne : Option String → String → List Value → Run σ Row
  queryOneStrict : Option String → String → List Value → Run σ Row
  queryOpt : Option String → String → List Value → Run σ (Option Row)
  execute : Option String → String → List Value → Run σ Nat
  -- Whether a statement that is running can be cancelled.
  cancellable : Bool

-- A client that can also hand out rows one by one, an error behind them in its place.
structure StreamingClient (σ : Type) extends Client σ where
  stream : Option String → String → List Value → Run σ (List (Except Error Row))

namespace Client

-- The first row; further rows are passed over.
def firstRow : List Row → Except Error Row
  | [] => .error (.notFound "Expected one row, got none")
  | row :: _ => .ok row

def onlyRow : List Row → Except Error Row
  | [] => .error (.notFound "Expected 1 row, got 0")
  | [row] => .ok row
  | rows => .error (.tooManyRows 1 rows.length)

-- Goes on from the answer of a run to a value or an error, in the state the run left.
def andThen {σ α β : Type} (run : Run σ α) (f : α → Except Error β) : Run σ β := fun s =>
  match run s with
  | .error e s => .error e s
  | .ok a s =>
      match f a with
      | .error e => .error e s
      | .ok b => .ok b s

-- The client of two calls: the single-row calls fetch all rows.
def ofCalls {σ : Type} (query : Option String → String → List Value → Run σ (List Row))
    (execute : Option String → String → List Value → Run σ Nat) (cancellable : Bool) : Client σ where
  query
  queryOne tag sql params := andThen (query tag sql params) firstRow
  queryOneStrict tag sql params := andThen (query tag sql params) onlyRow
  queryOpt tag sql params := andThen (query tag sql params) fun rows => .ok rows.head?
  execute
  cancellable

-- A client that borrows another one. It passes every call on but the strict one, which it makes of
-- a call for all rows.
def borrowed {σ : Type} (c : Client σ) : Client σ :=
  { c with queryOneStrict := fun tag sql params => andThen (c.query tag sql params) onlyRow }

end Client

namespace Link

def statement {σ : Type} (link : Link σ) (sql : String) (params : List Value) : Run σ Reply := fun s =>
  match link.send sql params s with
  | .error d s => .error (d.ofStatement sql params) s
  | .ok reply s => .ok reply s

-- A reply with all its rows; an error behind them is the error of the statement.
def settled (sql : String) (params : List Value) (reply : Reply) : Except Error Reply :=
  match reply.late with
  | some d => .error (d.ofStatement sql params)
  | none => .ok reply

def items (reply : Reply) : List (Except Error Row) :=
  reply.rows.map .ok ++ (reply.late.map fun d => .error d.toError).toList

def query {σ : Type} (link : Link σ) (sql : String) (params : List Value) : Run σ (List Row) :=
  Client.andThen (link.statement sql params) fun reply => (settled sql params reply).map Reply.rows

def execute {σ : Type} (link : Link σ) (sql : String) (params : List Value) : Run σ Nat :=
  Client.andThen (link.statement sql params) fun reply => (settled sql params reply).map Reply.count

def stream {σ : Type} (link : Link σ) (sql : String) (params : List Value) :
    Run σ (List (Except Error Row)) :=
  Client.andThen (link.statement sql params) fun reply => .ok (items reply)

def client {σ : Type} (link : Link σ) : StreamingClient σ :=
  { Client.ofCalls (fun _ => link.query) (fun _ => link.execute) true with
    stream := fun _ => link.stream }

end Link

end QueryBuilder

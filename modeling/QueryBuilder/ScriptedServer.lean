import QueryBuilder.Client
import QueryBuilder.Monitor.Client

/-!
A server in memory that answers from a script and keeps a log of what it was sent.

Each statement takes the next entry of the script; behind its end everything affects no row. A
statement has as many parameters as the highest `$n` in its text, and the entry says their types. The
server runs one statement at a time, the next one only when the last is done, whether its caller has
waited for it or not.
-/

set_option autoImplicit false

namespace QueryBuilder

structure ScriptEntry where
  answer : Except DriverError Reply
  types : List PgType
  delay : Duration

-- What the server was sent: a statement, with its parameters unless it was refused, or a command.
inductive LogEntry where
  | statement (sql : String) (params : Option (List (Option Wire.Bytes)))
  | command (text : String)
deriving DecidableEq, Repr

structure ScriptedServer where
  script : List ScriptEntry
  refused : List (String × DriverError)
  log : List LogEntry
  clocks : Clocks
  -- When the last statement is done.
  busyUntil : Nat
  -- The connection ends when the last statement is done.
  isClosed : Bool

instance : Timed ScriptedServer where
  clocks := ScriptedServer.clocks
  setClocks c s := { s with clocks := c }

namespace ScriptEntry

-- What meets a statement for which the script has nothing.
def idle : ScriptEntry :=
  ⟨.ok .empty, [], ⟨0⟩⟩

end ScriptEntry

namespace ScriptedServer

def ofScript (script : List ScriptEntry) (refused : List (String × DriverError)) : ScriptedServer :=
  ⟨script, refused, [], .zero, 0, false⟩

-- The number that the digits at the front of a text write.
def leadingNumber (text : List Char) : Nat :=
  (text.takeWhile Char.isDigit).foldl (fun n c => 10 * n + (c.toNat - 48)) 0

def paramCount : List Char → Nat
  | [] => 0
  | c :: rest => max (if c = '$' then leadingNumber rest else 0) (paramCount rest)

-- Binds parameters from position `index` on, a parameter without a type as an eight-byte integer.
def encode (types : List PgType) : (index : Nat) → List Value → Except DriverError (List (Option Wire.Bytes))
  | _, [] => .ok []
  | index, v :: vs =>
      match v.bindTo (types[index]?.getD .int8) with
      | .error _ => .error (.client s!"error serializing parameter {index}")
      | .ok bytes => (encode types (index + 1) vs).map fun rest => bytes :: rest

-- The bound parameters, if there are as many as the statement has.
def bindAll (types : List PgType) (sql : String) (params : List Value) :
    Except DriverError (List (Option Wire.Bytes)) :=
  let expected := paramCount sql.toList
  if expected = params.length then encode types 0 params
  else .error (.client s!"expected {expected} parameters but got {params.length}")

def record (s : ScriptedServer) (e : LogEntry) : ScriptedServer :=
  { s with log := s.log ++ [e] }

-- What every call takes at least, in nanoseconds.
def turnaround : Nat := 10000

def spend (s : ScriptedServer) : ScriptedServer :=
  { s with clocks := s.clocks.spend turnaround }

def waitUntil (s : ScriptedServer) (time : Nat) : ScriptedServer :=
  { s with clocks := s.clocks.waitUntil time }

def work (s : ScriptedServer) (d : Duration) : ScriptedServer :=
  let done := s.clocks.now + d.nanos
  { s with busyUntil := done }.waitUntil done

-- A failure that reached the caller; one of them closes the connection.
def fail {α : Type} (d : DriverError) (s : ScriptedServer) : EStateM.Result DriverError ScriptedServer α :=
  .error d { s with isClosed := s.isClosed || d.isClosed }

-- A text ends with a NUL when it is sent, and so cannot hold one.
def unsendable : DriverError :=
  .client "error encoding message to server"

def isSendable (text : String) : Bool :=
  !text.toList.contains (Char.ofNat 0)

-- Meets a statement when its turn has come. One that fails does so at once, before its parameters are
-- asked for; for any other, nothing more comes from a caller that has given up by then.
def serve (entry : ScriptEntry) (sql : String) (params : List Value) : EStateM DriverError ScriptedServer Reply := fun s =>
  match entry.answer with
  | .error d => fail d (s.record (.statement sql none))
  | .ok reply =>
      if s.clocks.hasGivenUp then .ok .empty s
      else
        match bindAll entry.types sql params with
        | .error d => .error d s
        | .ok bytes => .ok reply ((s.record (.statement sql (some bytes))).work entry.delay)

def awaitTurn (s : ScriptedServer) : ScriptedServer :=
  s.waitUntil s.busyUntil

def send (sql : String) (params : List Value) : EStateM DriverError ScriptedServer Reply := fun s =>
  let s := s.spend
  if !isSendable sql then .error unsendable s
  else
    let s := s.awaitTurn
    if s.isClosed then .error .closed s
    else serve (s.script.head?.getD .idle) sql params { s with script := s.script.tail }

def command (text : String) : EStateM DriverError ScriptedServer Unit := fun s =>
  let s := s.spend
  if !isSendable text then .error unsendable s
  else
    let s := s.awaitTurn
    if s.isClosed then .error .closed s
    else
      let s := s.record (.command text)
      match s.refused.lookup text with
      | some d => fail d s
      | none => .ok () s

def link : Link ScriptedServer :=
  ⟨send, command⟩

end ScriptedServer

end QueryBuilder

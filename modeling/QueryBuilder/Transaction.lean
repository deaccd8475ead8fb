import QueryBuilder.Client

/-!
Transactions and savepoints as brackets around a body.

A scope is opened by a command. A body that succeeds is followed by the command that keeps its work,
one that fails by the command that undoes it. A block stands in a function: it gives what its body
gave, and ends the function when its scope cannot be opened or kept. A savepoint can also be opened by
hand and finished later; one that is dropped is undone.
-/

set_option autoImplicit false

namespace QueryBuilder

namespace Transaction

variable {σ : Type} (link : Link σ)

def command (text : String) : Run σ Unit := fun s =>
  match link.command text s with
  | .ok () s => .ok () s
  | .error d s => .error d.toError s

def attempt (text : String) : Run σ Unit := fun s =>
  match link.command text s with
  | .ok () s => .ok () s
  | .error _ s => .ok () s

-- The commands of a scope, and what is said when the work of its body cannot be undone.
structure Enclosure where
  opener : String
  keeper : String
  undoer : String
  note : String

-- The error of a body whose work could not be undone.
def bothFailed (e : Error) (note : String) (d : DriverError) : Error :=
  .transaction s!"{e.message} ({note}: {d.text})"

-- Runs a body and closes its scope: `keeper` after a value, `undoer` after an error.
def closing {α : Type} (b : Enclosure) (body : Run σ α) : Run σ (Except Error α) := fun s =>
  match body s with
  | .ok a s =>
      match link.command b.keeper s with
      | .ok () s => .ok (.ok a) s
      | .error d s => .error d.toError s
  | .error e s =>
      match link.command b.undoer s with
      | .ok () s => .ok (.error e) s
      | .error d s => .ok (.error (bothFailed e b.note d)) s

def enclosed {α : Type} (opening : Run σ Unit) (b : Enclosure) (body : Run σ α) : Run σ (Except Error α) := fun s =>
  match opening s with
  | .ok () s => closing link b body s
  | .error e s => .error e s

def enclosure : Enclosure where
  opener := "START TRANSACTION"
  keeper := "COMMIT"
  undoer := "ROLLBACK"
  note := "rollback failed"

-- A transaction that does not start is rolled back all the same.
def start : Run σ Unit := fun s =>
  match command link enclosure.opener s with
  | .ok () s => .ok () s
  | .error e s =>
      match attempt link enclosure.undoer s with
      | .ok () s => .error e s
      | .error _ s => .error e s

def block {α : Type} (body : Run σ α) : Run σ (Except Error α) :=
  enclosed link (start link) enclosure body

-- A function that is a block and nothing else.
def run {α : Type} (body : Run σ α) : Run σ α :=
  Client.andThen (block link body) id

end Transaction

namespace Savepoint

variable {σ : Type} (link : Link σ) (name : String)

def enclosure : Transaction.Enclosure where
  opener := "SAVEPOINT " ++ name
  keeper := "RELEASE " ++ name
  undoer := "ROLLBACK TO " ++ name
  note := "savepoint rollback failed"

def «open» : Run σ Unit :=
  Transaction.command link (enclosure name).opener

-- A block in a savepoint of the transaction that is open.
def block {α : Type} (body : Run σ α) : Run σ (Except Error α) :=
  Transaction.enclosed link (Savepoint.open link name) (enclosure name) body

def run {α : Type} (body : Run σ α) : Run σ α :=
  Client.andThen (block link name body) id

-- The ways to be done with a savepoint that was opened by hand.
inductive Finish where
  | release
  | rollback
  | drop
deriving DecidableEq, Repr

def finish : Finish → Run σ Unit
  | .release => Transaction.command link (enclosure name).keeper
  | .rollback => Transaction.command link (enclosure name).undoer
  | .drop => Transaction.attempt link (enclosure name).undoer

-- The name of a savepoint that is given none: its number, counted from zero.
def numberedName (n : Nat) : String :=
  s!"pgfluent_sp_{n}"

end Savepoint

namespace Transaction

variable {σ : Type} (link : Link σ) (name : String)

-- A transaction in a transaction is a savepoint that the driver gives a name to.
def innerEnclosure : Enclosure :=
  { Savepoint.enclosure name with note := enclosure.note }

def innerBlock {α : Type} (body : Run σ α) : Run σ (Except Error α) :=
  enclosed link (Savepoint.open link name) (innerEnclosure name) body

end Transaction

-- A state with the number of savepoints that were named automatically.
structure Numbered (σ : Type) where
  inner : σ
  count : Nat

namespace Numbered

variable {σ : Type}

def lift {ε α : Type} : EStateM ε σ α → EStateM ε (Numbered σ) α :=
  Run.zoom Numbered.inner fun s inner => ⟨inner, s.count⟩

def freshName : Run (Numbered σ) String := fun s =>
  .ok (Savepoint.numberedName s.count) ⟨s.inner, s.count + 1⟩

def nameOr (name : Option String) : Run (Numbered σ) String :=
  match name with
  | some name => pure name
  | none => freshName

end Numbered

namespace Link

variable {σ : Type} (link : Link σ)

def numbered : Link (Numbered σ) where
  send sql params := Numbered.lift (link.send sql params)
  command text := Numbered.lift (link.command text)

-- A block in a savepoint, under an automatic name if it is given none.
def savepointBlock {α : Type} (name : Option String) (body : Run (Numbered σ) α) :
    Run (Numbered σ) (Except Error α) := do
  let name ← Numbered.nameOr name
  Savepoint.block link.numbered name body

end Link

end QueryBuilder

import QueryBuilder.Draft
import QueryBuilder.Client

/-!
Statements: a draft bound to a client. The first run that compiles makes the draft final, whatever
the client answers, and from then on it is no longer handed out for changes.
-/

set_option autoImplicit false

namespace QueryBuilder

-- A draft and what stands behind the client it is bound to.
structure Statement (σ : Type) where
  draft : Draft
  behind : σ

namespace Statement

variable {σ : Type}

-- Makes changes through the draft, which a final draft refuses.
def edit {α : Type} (change : Run Draft α) : Run (Statement σ) α := fun s =>
  if s.draft.isFinal then .error .cantMutateAfterExecute s
  else
    match change s.draft with
    | .error e draft => .error e ⟨draft, s.behind⟩
    | .ok a draft => .ok a ⟨draft, s.behind⟩

-- The compiled form for a run; it makes the draft final.
def prepare : Run (Statement σ) Compiled := fun s =>
  match Draft.compile s.draft with
  | .error e draft => .error e ⟨draft, s.behind⟩
  | .ok c draft => .ok c ⟨draft.markFinal, s.behind⟩

def run {α : Type} (call : Option String → String → List Value → Run σ α) : Run (Statement σ) α := fun s =>
  match prepare s with
  | .error e s => .error e s
  | .ok c s =>
      match call none c.sql c.params s.behind with
      | .error e behind => .error e ⟨s.draft, behind⟩
      | .ok a behind => .ok a ⟨s.draft, behind⟩

def fetchAll (client : Client σ) : Run (Statement σ) (List Row) :=
  run client.query

def fetchOne (client : Client σ) : Run (Statement σ) Row :=
  run client.queryOne

def fetchOpt (client : Client σ) : Run (Statement σ) (Option Row) :=
  run client.queryOpt

def execute (client : Client σ) : Run (Statement σ) Nat :=
  run client.execute

def fetchAllAs {α : Type} (client : Client σ) (read : RowReader α) : Run (Statement σ) (List α) :=
  Client.andThen (fetchAll client) read.all

def fetchOneAs {α : Type} (client : Client σ) (read : RowReader α) : Run (Statement σ) α :=
  Client.andThen (fetchOne client) read

def fetchOptAs {α : Type} (client : Client σ) (read : RowReader α) : Run (Statement σ) (Option α) :=
  Client.andThen (fetchOpt client) read.optional

end Statement

end QueryBuilder

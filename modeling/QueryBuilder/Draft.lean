import QueryBuilder.Numbering
import QueryBuilder.Query.Change
import QueryBuilder.Value.Equality

/-!
A query under construction, with the compiled form it remembers and the mark of having been run.

Every change forgets the compiled form; compiling remembers it. A copy remembers nothing and has
not been run.
-/

set_option autoImplicit false

namespace QueryBuilder

structure Draft where
  query : Query
  memo : Option Compiled
  isFinal : Bool

namespace Draft

def ofQuery (q : Query) : Draft :=
  ⟨q, none, false⟩

def copy (d : Draft) : Draft :=
  ofQuery d.query

def same (d e : Draft) : Bool :=
  d.query.same e.query

def replace (d : Draft) (q : Query) : Draft :=
  ⟨q, none, d.isFinal⟩

-- Makes one change; a refusal leaves the draft as it is.
def change (c : Change) : Run Draft Unit := fun d =>
  match c d.query with
  | .error e => .error e d
  | .ok q => .ok () (d.replace q)

-- Makes changes in order up to the first refusal; those before it stay made.
def changeAll : List Change → Run Draft Unit
  | [] => fun d => .ok () d
  | c :: cs => fun d =>
      match change c d with
      | .error e d => .error e d
      | .ok () d => changeAll cs d

def call (c : Call) : Run Draft Unit :=
  changeAll c.changes

def markFinal (d : Draft) : Draft :=
  ⟨d.query, d.memo, true⟩

-- The final form: the remembered one, or a new one that is remembered from now on.
def compile : Run Draft Compiled := fun d =>
  match d.memo with
  | some c => .ok c d
  | none =>
      match d.query.compile with
      | .error e => .error e d
      | .ok c => .ok c ⟨d.query, some c, d.isFinal⟩

end Draft

end QueryBuilder

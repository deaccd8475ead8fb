import QueryBuilder.Draft

/-!
Cursors into condition trees.

A cursor stands on a branch, which it names by the path of child offsets from the root, and edits
the children of that branch. The tree is a free one or belongs to a draft; a tree of a draft is made
when it is first edited, and every edit forgets the draft's compiled form.
-/

set_option autoImplicit false

namespace QueryBuilder

namespace Condition

-- The branch at the end of a path, if every step of it leads to a branch.
def branchAt? : (path : List Nat) → Condition → Option Condition
  | [], c => some c
  | i :: path, c =>
      match c.children[i]? with
      | some (.branch b) => branchAt? path b
      | _ => none

-- Edits the branch at the end of a path.
def editAt {α : Type} (f : Condition → Except Error (α × Condition)) :
    (path : List Nat) → Condition → Except Error (α × Condition)
  | [], c => f c
  | i :: path, c =>
      match c.children[i]? with
      | some (.branch b) =>
          (editAt f path b).map fun (a, b) => (a, ⟨c.combinator, c.children.set i (.branch b)⟩)
      | _ => .error (.badOffset i c.length)

end Condition

inductive Anchor where
  | detached (root : Condition)
  | attached (draft : Draft) (slot : Slot)

namespace Anchor

def root? : Anchor → Option Condition
  | detached root => some root
  | attached draft slot => draft.query.tree? slot

def root : Anchor → Condition
  | detached root => root
  | attached draft slot => draft.query.tree slot

def put (a : Anchor) (c : Condition) : Anchor :=
  match a with
  | detached _ => detached c
  | attached draft slot => attached (draft.replace (draft.query.putTree slot c)) slot

-- Makes sure that the root is there.
def opened (a : Anchor) : Anchor :=
  a.put a.root

end Anchor

structure Cursor where
  anchor : Anchor
  path : List Nat

inductive CursorCall where
  | add (cond : Cond) (params : List Value)
  | set (offset : Nat) (cond : Cond) (params : List Value)
  | descend (combinator : Combinator)
  | parent
  | get (offset : Nat)
  | exists_ (offset : Nat)
  | remove (offset : Nat)
  | length
  | isEmpty
  | combinator
  | depth
  | query

inductive CursorReply where
  | done
  | node (n : Option Node)
  | flag (b : Bool)
  | count (n : Nat)
  | combinator (c : Combinator)
  | kind (k : QueryKind)

namespace Cursor

def ofTree (c : Condition) : Cursor :=
  ⟨.detached c, []⟩

def atRoot (d : Draft) (slot : Slot) : Cursor :=
  ⟨(Anchor.attached d slot).opened, []⟩

def branch? (k : Cursor) : Option Condition :=
  k.anchor.root?.bind (Condition.branchAt? k.path)

def edit {α : Type} (f : Condition → Except Error (α × Condition)) : Run Cursor α := fun k =>
  let anchor := k.anchor.opened
  match anchor.root.editAt f k.path with
  | .error e => .error e ⟨anchor, k.path⟩
  | .ok (a, c) => .ok a ⟨anchor.put c, k.path⟩

def descend (combinator : Combinator) : Run Cursor Unit := fun k =>
  match edit (fun c => .ok (c.length, c.push (.branch (.empty combinator)))) k with
  | .error e k => .error e k
  | .ok offset k => .ok () ⟨k.anchor, k.path ++ [offset]⟩

def parent : Run Cursor Unit := fun k =>
  if k.path.isEmpty then .error .noParent k else .ok () ⟨k.anchor, k.path.dropLast⟩

def inBranch (d : Draft) (slot : Slot) (combinator : Combinator) : Cursor :=
  match descend combinator (atRoot d slot) with
  | .ok _ k => k
  | .error _ k => k

def draft? (k : Cursor) : Option Draft :=
  match k.anchor with
  | .attached draft _ => some draft
  | .detached _ => none

def tree (k : Cursor) : Condition :=
  k.anchor.root

def length (k : Cursor) : Nat :=
  (k.branch?.map Condition.length).getD 0

def call : CursorCall → Run Cursor CursorReply
  | .add cond params => edit fun c => (c.add cond params).map fun c => (.done, c)
  | .set offset cond params => edit fun c => (c.set offset cond params).map fun c => (.done, c)
  | .descend combinator => fun k =>
      match descend combinator k with
      | .error e k => .error e k
      | .ok () k => .ok .done k
  | .parent => fun k =>
      match parent k with
      | .error e k => .error e k
      | .ok () k => .ok .done k
  | .get offset => fun k => .ok (.node (k.branch?.bind fun c => c.get? offset)) k
  | .exists_ offset => fun k => .ok (.flag ((k.branch?.map fun c => c.exists? offset).getD false)) k
  | .remove offset => edit fun c => let (n, c) := c.remove offset; .ok (.node n, c)
  | .length => fun k => .ok (.count k.length) k
  | .isEmpty => fun k => .ok (.flag (k.length == 0)) k
  | .combinator => fun k => .ok (.combinator ((k.branch?.map Condition.combinator).getD .and)) k
  | .depth => fun k => .ok (.count k.path.length) k
  | .query => fun k =>
      match k.draft? with
      | some d => .ok (.kind d.query.kind) k
      | none => .error .noQuery k

-- Calls one after the other; a failure loses the cursor, and asking for the query gives it up.
def callAll : List CursorCall → Cursor → List (Except Error CursorReply) × Cursor
  | [], k => ([], k)
  | c :: cs, k =>
      match call c k with
      | .error e k => ([.error e], k)
      | .ok r k =>
          match c with
          | .query => ([.ok r], k)
          | _ =>
              let (rest, k) := callAll cs k
              (.ok r :: rest, k)

end Cursor

end QueryBuilder

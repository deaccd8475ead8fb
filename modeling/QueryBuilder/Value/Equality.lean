import QueryBuilder.Value

/-!
When two values are the same.

Floating-point numbers compare as numbers, driver values by identity, and everything else part by
part. The ON trees of a query are a map from aliases, so their order does not count.
-/

set_option autoImplicit false

namespace QueryBuilder

mutual
def Value.same : Value → Value → Bool
  | .null, .null => true
  | .bool a, .bool b => a == b
  | .int a, .int b => a == b
  | .float a, .float b => a.sameNumber b
  | .text a, .text b => a == b
  | .bytes a, .bytes b => a == b
  | .json a, .json b => a == b
  | .uuid a, .uuid b => a == b
  | .date a, .date b => a == b
  | .timestamp a, .timestamp b => a == b
  | .timestampTz a, .timestampTz b => a == b
  | .array a, .array b => sameValues a b
  | .param a, .param b => a.serial == b.serial
  | .fragment a, .fragment b => a.same b
  | .query a, .query b => a.same b
  | _, _ => false
termination_by structural x => x

def sameValues : List Value → List Value → Bool
  | [], [] => true
  | a :: as, b :: bs => a.same b && sameValues as bs
  | _, _ => false
termination_by structural x => x

def Fragment.same : Fragment → Fragment → Bool
  | ⟨text, params, tag⟩, g => text == g.text && sameValues params g.params && tag == g.tag
termination_by structural x => x

def sameFragments : List Fragment → List Fragment → Bool
  | [], [] => true
  | f :: fs, g :: gs => f.same g && sameFragments fs gs
  | _, _ => false
termination_by structural x => x

def Node.same : Node → Node → Bool
  | .leaf s ps, .leaf t qs => s == t && sameValues ps qs
  | .branch c, .branch d => c.same d
  | _, _ => false
termination_by structural x => x

def sameNodes : List Node → List Node → Bool
  | [], [] => true
  | m :: ms, n :: ns => m.same n && sameNodes ms ns
  | _, _ => false
termination_by structural x => x

def Condition.same : Condition → Condition → Bool
  | ⟨combinator, children⟩, d => combinator == d.combinator && sameNodes children d.children
termination_by structural x => x

def sameTree : Option Condition → Option Condition → Bool
  | none, none => true
  | some c, some d => c.same d
  | _, _ => false
termination_by structural x => x

-- Every tree of the first list has its like under the same alias in the second.
def sameJoinTrees : List JoinTree → List JoinTree → Bool
  | [], _ => true
  | ⟨aliasName, tree⟩ :: rest, others =>
      (match others.find? fun o => o.aliasName == aliasName with
        | some o => tree.same o.tree
        | none => false) && sameJoinTrees rest others
termination_by structural x => x

def Expr.same : Expr → Expr → Bool
  | .raw s, .raw t => s == t
  | .value v, .value w => v.same w
  | _, _ => false
termination_by structural x => x

def sameExprs : List Expr → List Expr → Bool
  | [], [] => true
  | a :: as, b :: bs => a.same b && sameExprs as bs
  | _, _ => false
termination_by structural x => x

def SelectItem.same : SelectItem → SelectItem → Bool
  | ⟨aliasName, expr⟩, b => aliasName == b.aliasName && expr.same b.expr
termination_by structural x => x

def sameItems : List SelectItem → List SelectItem → Bool
  | [], [] => true
  | a :: as, b :: bs => a.same b && sameItems as bs
  | _, _ => false
termination_by structural x => x

def TableSource.same : TableSource → TableSource → Bool
  | .name s, .name t => s == t
  | .fragment f, .fragment g => f.same g
  | .query q, .query r => q.same r
  | _, _ => false
termination_by structural x => x

def Table.same : Table → Table → Bool
  | ⟨aliasName, source, role⟩, b => aliasName == b.aliasName && source.same b.source && role == b.role
termination_by structural x => x

def sameTables : List Table → List Table → Bool
  | [], [] => true
  | a :: as, b :: bs => a.same b && sameTables as bs
  | _, _ => false
termination_by structural x => x

def sameSetOperations : List SetOperation → List SetOperation → Bool
  | [], [] => true
  | ⟨operator, operand⟩ :: as, b :: bs =>
      operator == b.operator && operand.same b.operand && sameSetOperations as bs
  | _, _ => false
termination_by structural x => x

def sameCells : List Cell → List Cell → Bool
  | [], [] => true
  | ⟨column, value⟩ :: as, b :: bs => column == b.column && value.same b.value && sameCells as bs
  | _, _ => false
termination_by structural x => x

def sameRows : List (List Cell) → List (List Cell) → Bool
  | [], [] => true
  | a :: as, b :: bs => sameCells a b && sameRows as bs
  | _, _ => false
termination_by structural x => x

def sameSource : Option Query → Option Query → Bool
  | none, none => true
  | some q, some r => q.same r
  | _, _ => false
termination_by structural x => x

def Query.same : Query → Query → Bool
  | ⟨kind, items, distinct, tables, main, joinTrees, whereTree, groupBy, havingTree, orderBy, limit, offset,
      setOperations, columns, source, returning, data, rows, leading, trailing⟩, r =>
      kind == r.kind && sameItems items r.items && distinct == r.distinct && sameTables tables r.tables
        && main == r.main && joinTrees.length == r.joinTrees.length && sameJoinTrees joinTrees r.joinTrees
        && sameTree whereTree r.whereTree && sameExprs groupBy r.groupBy && sameTree havingTree r.havingTree
        && sameExprs orderBy r.orderBy && limit == r.limit && offset == r.offset
        && sameSetOperations setOperations r.setOperations && columns == r.columns
        && sameSource source r.source && sameItems returning r.returning && sameCells data r.data
        && sameRows rows r.rows && sameFragments leading r.leading && sameFragments trailing r.trailing
termination_by structural x => x
end

instance : BEq Value := ⟨Value.same⟩
instance : BEq Fragment := ⟨Fragment.same⟩
instance : BEq Condition := ⟨Condition.same⟩
instance : BEq Query := ⟨Query.same⟩

end QueryBuilder

import QueryBuilder.Query.Size

/-!
The values that a query binds, told from the query alone.

`Query.bound` lists what the clauses of each kind of statement bind, clause by clause. `Value.flat`
takes apart what is no single parameter: arrays, fragments and sub-queries, to any depth.
-/

set_option autoImplicit false

namespace QueryBuilder

-- Among expressions and data a boolean is written out, so nothing is bound for it.
def Value.bound : Value → List Value
  | .bool _ => []
  | v => [v]

def Expr.bound : Expr → List Value
  | .raw _ => []
  | .value v => v.bound

def itemsBound (items : List SelectItem) : List Value :=
  items.flatMap fun item => item.expr.bound

def exprsBound (exprs : List Expr) : List Value :=
  exprs.flatMap Expr.bound

def TableSource.bound : TableSource → List Value
  | .name _ => []
  | .fragment f => [.fragment f]
  | .query q => [.query q]

-- A lone null of a leaf without marker becomes `IS NULL`.
def leafBound (text : String) : List Value → List Value
  | [.null] => if Marker.count text = 0 then [] else [.null]
  | params => params

mutual
def Node.bound : Node → List Value
  | .leaf text params => leafBound text params
  | .branch c => c.bound
termination_by structural x => x

def Condition.bound : Condition → List Value
  | ⟨_, children⟩ => nodesBound children
termination_by structural x => x

-- From left to right.
def nodesBound : List Node → List Value
  | [] => []
  | n :: ns => n.bound ++ nodesBound ns
termination_by structural x => x
end

def treeBound : Option Condition → List Value
  | none => []
  | some c => c.bound

-- The values of a row in the order of the columns; a column it lacks binds nothing.
def DataRow.bound (names : List String) (row : DataRow) : List Value :=
  names.flatMap fun name => ((row.get? name).map Value.bound).getD []

namespace Query

def fragmentsBound (fragments : List Fragment) : List Value :=
  fragments.map .fragment

def mainBound (q : Query) : List Value :=
  (q.mainTable?.map fun t => t.source.bound).getD []

def listedBound (q : Query) : List Value :=
  q.listedTables.flatMap fun t => t.source.bound

-- A joined table with its ON tree, which a CROSS JOIN has not.
def joinBound (q : Query) (t : Table) : List Value :=
  match t.role with
  | .joined .cross => t.source.bound
  | .joined _ => t.source.bound ++ treeBound (q.joinTree? t.aliasName)
  | _ => []

def joinsBound (q : Query) : List Value :=
  q.tables.flatMap q.joinBound

def countBound (count : Option Int64) : List Value :=
  (count.map Value.int).toList

def insertedBound (q : Query) : List Value :=
  match q.source with
  | some source => [.query source]
  | none => q.rowsToInsert.flatMap (DataRow.bound q.insertedNames)

def setBound (q : Query) : List Value :=
  q.data.flatMap fun c => c.value.bound

def bound (q : Query) : List Value :=
  match q.kind with
  | .select =>
      fragmentsBound q.leading ++ itemsBound q.items ++ q.mainBound ++ q.listedBound ++ q.joinsBound
        ++ treeBound q.whereTree ++ exprsBound q.groupBy ++ treeBound q.havingTree ++ exprsBound q.orderBy
        ++ countBound q.limit ++ countBound q.offset ++ q.setOperations.map SetOperation.operand
        ++ fragmentsBound q.trailing
  | .insert =>
      fragmentsBound q.leading ++ q.mainBound ++ q.insertedBound ++ fragmentsBound q.trailing ++ itemsBound q.returning
  | .update =>
      fragmentsBound q.leading ++ q.mainBound ++ q.setBound ++ q.listedBound ++ q.joinsBound
        ++ treeBound q.whereTree ++ fragmentsBound q.trailing ++ itemsBound q.returning
  | .delete =>
      fragmentsBound q.leading ++ q.mainBound ++ treeBound q.whereTree ++ fragmentsBound q.trailing
        ++ itemsBound q.returning
  | .truncate => q.mainBound ++ fragmentsBound q.trailing

end Query

-- A list of parts of something of size `n`, which lets a walk go into them.
def Within (n : Nat) (vs : List Value) : Prop :=
  ∀ v ∈ vs, sizeOf v < n

theorem within_nil (n : Nat) : Within n [] :=
  nofun

theorem within_append {n : Nat} {vs ws : List Value} : Within n (vs ++ ws) ↔ Within n vs ∧ Within n ws :=
  List.forall_mem_append

theorem within_mono {m n : Nat} {vs : List Value} (within : Within m vs) (le : m ≤ n) : Within n vs :=
  fun v member => Nat.lt_of_lt_of_le (within v member) le

theorem within_flat_map {α : Type} {n : Nat} {f : α → List Value} {items : List α}
    (each : ∀ x ∈ items, Within n (f x)) : Within n (items.flatMap f) := by
  intro v member
  obtain ⟨x, inside, held⟩ := List.mem_flatMap.mp member
  exact each x inside v held

theorem within_singleton {n : Nat} {v : Value} (smaller : sizeOf v < n) : Within n [v] := by
  intro w member
  rw [List.mem_singleton.mp member]
  exact smaller

theorem value_bound_within {n : Nat} {v : Value} (smaller : sizeOf v < n) : Within n v.bound := by
  cases v with
  | bool b => exact within_nil n
  | _ => exact within_singleton smaller

theorem expr_bound_within (e : Expr) : Within (sizeOf e) e.bound := by
  cases e with
  | raw text => exact within_nil _
  | value v =>
      apply value_bound_within
      simp only [Expr.value.sizeOf_spec]
      omega

theorem items_bound_within (items : List SelectItem) : Within (sizeOf items) (itemsBound items) := by
  apply within_flat_map
  intro item member
  have inside := List.sizeOf_lt_of_mem member
  obtain ⟨aliasName, expr⟩ := item
  simp only [SelectItem.mk.sizeOf_spec] at inside
  exact within_mono (expr_bound_within expr) (by omega)

theorem exprs_bound_within (exprs : List Expr) : Within (sizeOf exprs) (exprsBound exprs) := by
  apply within_flat_map
  intro e member
  have inside := List.sizeOf_lt_of_mem member
  exact within_mono (expr_bound_within e) (by omega)

theorem source_bound_within {t : Table} : Within (sizeOf t) t.source.bound := by
  obtain ⟨aliasName, source, role⟩ := t
  cases source with
  | name s => exact within_nil _
  | fragment f =>
      apply within_singleton
      simp only [Value.fragment.sizeOf_spec, Table.mk.sizeOf_spec, TableSource.fragment.sizeOf_spec]
      omega
  | query q =>
      apply within_singleton
      simp only [Value.query.sizeOf_spec, Table.mk.sizeOf_spec, TableSource.query.sizeOf_spec]
      omega

theorem leaf_bound_subset (text : String) (params : List Value) : leafBound text params ⊆ params := by
  unfold leafBound
  split
  · split <;> simp
  · exact List.Subset.refl _

mutual
theorem node_bound_within (n : Node) : Within (sizeOf n) n.bound := by
  cases n with
  | leaf text params =>
      intro v member
      have inside := List.sizeOf_lt_of_mem (leaf_bound_subset text params member)
      simp only [Node.leaf.sizeOf_spec]
      omega
  | branch c =>
      simp only [Node.branch.sizeOf_spec, Node.bound]
      exact within_mono (condition_bound_within c) (by omega)

theorem condition_bound_within (c : Condition) : Within (sizeOf c) c.bound := by
  obtain ⟨combinator, children⟩ := c
  simp only [Condition.mk.sizeOf_spec, Condition.bound]
  exact within_mono (nodes_bound_within children) (by omega)

theorem nodes_bound_within (ns : List Node) : Within (sizeOf ns) (nodesBound ns) := by
  cases ns with
  | nil => exact within_nil _
  | cons n ns =>
      simp only [List.cons.sizeOf_spec, nodesBound]
      exact within_append.mpr ⟨within_mono (node_bound_within n) (by omega), within_mono (nodes_bound_within ns) (by omega)⟩
end

theorem tree_bound_within (tree : Option Condition) : Within (sizeOf tree) (treeBound tree) := by
  cases tree with
  | none => exact within_nil _
  | some c =>
      simp only [Option.some.sizeOf_spec]
      exact within_mono (condition_bound_within c) (by omega)

theorem row_bound_within (names : List String) (row : DataRow) : Within (sizeOf row) (DataRow.bound names row) := by
  apply within_flat_map
  intro name _
  cases found : DataRow.get? row name with
  | none => exact within_nil _
  | some v => exact value_bound_within (DataRow.sizeOf_get found)

theorem fragments_bound_within (fragments : List Fragment) :
    Within (sizeOf fragments + 1) (Query.fragmentsBound fragments) := by
  intro v member
  obtain ⟨f, inside, rfl⟩ := List.mem_map.mp member
  have smaller := List.sizeOf_lt_of_mem inside
  simp only [Value.fragment.sizeOf_spec]
  omega

theorem count_bound_within (count : Option Int64) : Within (sizeOf count + 1) (Query.countBound count) := by
  cases count with
  | none => exact within_nil _
  | some n =>
      apply within_singleton
      simp only [Value.int.sizeOf_spec, Option.some.sizeOf_spec]
      omega

namespace Query

theorem table_bound_within {q : Query} {t : Table} (member : t ∈ q.tables) : Within (sizeOf q) t.source.bound := by
  have inside := List.sizeOf_lt_of_mem member
  have fields := q.sizeOf_fields
  exact within_mono source_bound_within (by omega)

theorem main_bound_within (q : Query) : Within (sizeOf q) q.mainBound := by
  rw [mainBound]
  cases found : q.mainTable? with
  | none => exact within_nil _
  | some t => exact table_bound_within (mem_tables_of_main found)

theorem listed_bound_within (q : Query) : Within (sizeOf q) q.listedBound :=
  within_flat_map fun _ member => table_bound_within (mem_tables_of_listed member)

theorem joins_bound_within (q : Query) : Within (sizeOf q) q.joinsBound := by
  apply within_flat_map
  intro t member
  have source := table_bound_within member
  have tree : Within (sizeOf q) (treeBound (q.joinTree? t.aliasName)) := by
    cases found : q.joinTree? t.aliasName with
    | none => exact within_nil _
    | some c => exact within_mono (tree_bound_within _) (below_joinTree found)
  rw [joinBound]
  split
  · exact source
  · exact within_append.mpr ⟨source, tree⟩
  · exact within_nil _

theorem inserted_bound_within (q : Query) : Within (sizeOf q) q.insertedBound := by
  have fields := q.sizeOf_fields
  rw [insertedBound]
  split
  · rename_i source found
    apply within_singleton
    simp only [found, Option.some.sizeOf_spec] at fields
    simp only [Value.query.sizeOf_spec]
    omega
  · apply within_flat_map
    intro row member
    exact within_mono (row_bound_within _ row) (Nat.le_of_lt (sizeOf_rowsToInsert member))

theorem set_bound_within (q : Query) : Within (sizeOf q) q.setBound := by
  refine within_flat_map fun c member => value_bound_within ?_
  have inside := List.sizeOf_lt_of_mem member
  have fields := q.sizeOf_fields
  cases c
  simp only [Cell.mk.sizeOf_spec] at inside ⊢
  omega

theorem operands_within (q : Query) : Within (sizeOf q) (q.setOperations.map SetOperation.operand) := by
  intro v member
  obtain ⟨s, inside, rfl⟩ := List.mem_map.mp member
  have smaller := List.sizeOf_lt_of_mem inside
  have fields := q.sizeOf_fields
  cases s
  simp only [SetOperation.mk.sizeOf_spec] at smaller ⊢
  omega

theorem bound_within (q : Query) : Within (sizeOf q) q.bound := by
  have fields := q.sizeOf_fields
  have leading : Within (sizeOf q) (fragmentsBound q.leading) := within_mono (fragments_bound_within _) (by omega)
  have trailing : Within (sizeOf q) (fragmentsBound q.trailing) := within_mono (fragments_bound_within _) (by omega)
  have items : Within (sizeOf q) (itemsBound q.items) := within_mono (items_bound_within _) (by omega)
  have returning : Within (sizeOf q) (itemsBound q.returning) := within_mono (items_bound_within _) (by omega)
  have filter : Within (sizeOf q) (treeBound q.whereTree) := within_mono (tree_bound_within _) (by omega)
  have having : Within (sizeOf q) (treeBound q.havingTree) := within_mono (tree_bound_within _) (by omega)
  have groups : Within (sizeOf q) (exprsBound q.groupBy) := within_mono (exprs_bound_within _) (by omega)
  have orders : Within (sizeOf q) (exprsBound q.orderBy) := within_mono (exprs_bound_within _) (by omega)
  have limit : Within (sizeOf q) (countBound q.limit) := within_mono (count_bound_within _) (by omega)
  have offset : Within (sizeOf q) (countBound q.offset) := within_mono (count_bound_within _) (by omega)
  have main := q.main_bound_within
  have listed := q.listed_bound_within
  have joins := q.joins_bound_within
  rw [bound]
  cases q.kind with
  | select => simp only [within_append, items, main, listed, joins, filter, groups, having, orders, limit, offset,
      leading, trailing, operands_within, and_self]
  | insert => simp only [within_append, leading, main, inserted_bound_within, trailing, returning, and_self]
  | update => simp only [within_append, leading, main, set_bound_within, listed, joins, filter, trailing, returning,
      and_self]
  | delete => simp only [within_append, leading, main, filter, trailing, returning, and_self]
  | truncate => simp only [within_append, main, trailing, and_self]

end Query

-- The parameters that one value comes to.
def Value.flat (value : Value) : List Value :=
  match value with
  | .array vs => vs.flatMap Value.flat
  | .fragment f => f.params.flatMap Value.flat
  | .query q => q.bound.attach.flatMap fun v => Value.flat v.val
  | scalar => [scalar]
termination_by sizeOf value
decreasing_by
  · rename_i member
    have smaller := List.sizeOf_lt_of_mem member
    simp only [Value.array.sizeOf_spec]
    omega
  · rename_i member
    have smaller := List.sizeOf_lt_of_mem member
    cases f
    simp only [Value.fragment.sizeOf_spec, Fragment.mk.sizeOf_spec] at smaller ⊢
    omega
  · have smaller := q.bound_within v.val v.property
    simp only [Value.query.sizeOf_spec]
    omega

def flatAll (vs : List Value) : List Value :=
  vs.flatMap Value.flat

theorem flat_array (vs : List Value) : Value.flat (.array vs) = flatAll vs := by
  rw [Value.flat]
  rfl

theorem flat_fragment (f : Fragment) : Value.flat (.fragment f) = flatAll f.params := by
  rw [Value.flat]
  rfl

theorem flat_query (q : Query) : Value.flat (.query q) = flatAll q.bound := by
  have each : q.bound.attach.flatMap (fun v => v.val.flat) = q.bound.flatMap Value.flat := by
    rw [← List.flatMap_map, List.attach_map_subtype_val]
  rw [Value.flat, each]
  rfl

theorem flat_all_append (vs ws : List Value) : flatAll (vs ++ ws) = flatAll vs ++ flatAll ws :=
  List.flatMap_append

end QueryBuilder

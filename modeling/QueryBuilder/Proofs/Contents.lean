import QueryBuilder.Proofs.Bindings
import QueryBuilder.Proofs.Parenthesization

/-!
What a value holds: the items of an array, the parameters of a fragment and all that a query has been
told, its condition trees included, and what these hold in turn.

Main statement: a value is larger than its parts, so that what holds of a value when it holds of its
parts holds of every value.
-/

set_option autoImplicit false

namespace QueryBuilder

def Expr.values : Expr → List Value
  | .raw _ => []
  | .value v => [v]

def SelectItem.values (item : SelectItem) : List Value :=
  item.expr.values

def Table.values (t : Table) : List Value :=
  t.source.bound

def Condition.values (c : Condition) : List Value :=
  c.leaves.flatMap Prod.snd

def JoinTree.values (j : JoinTree) : List Value :=
  j.tree.values

def SetOperation.values (s : SetOperation) : List Value :=
  [s.operand]

def Cell.values (c : Cell) : List Value :=
  [c.value]

-- The limit and the offset are integers and no values.
def Query.parts (q : Query) : List Value :=
  q.items.flatMap SelectItem.values ++ q.tables.flatMap Table.values ++ q.joinTrees.flatMap JoinTree.values
    ++ q.whereTree.toList.flatMap Condition.values ++ q.groupBy.flatMap Expr.values
    ++ q.havingTree.toList.flatMap Condition.values ++ q.orderBy.flatMap Expr.values
    ++ q.setOperations.flatMap SetOperation.values ++ q.source.toList.flatMap (fun r => [.query r])
    ++ q.returning.flatMap SelectItem.values ++ q.data.flatMap Cell.values
    ++ q.rows.flatMap (fun row => row.flatMap Cell.values) ++ q.leading.flatMap (fun f => [.fragment f])
    ++ q.trailing.flatMap (fun f => [.fragment f])

def Value.parts : Value → List Value
  | .array vs => vs
  | .fragment f => f.params
  | .query q => q.parts
  | _ => []

-- What holds of all that a query has been told, place by place.
structure Query.AllParts (P : Value → Prop) (q : Query) : Prop where
  items : ∀ item ∈ q.items, ∀ v ∈ item.values, P v
  tables : ∀ t ∈ q.tables, ∀ v ∈ t.values, P v
  joinTrees : ∀ j ∈ q.joinTrees, ∀ v ∈ j.values, P v
  whereTree : ∀ c ∈ q.whereTree.toList, ∀ v ∈ c.values, P v
  groupBy : ∀ e ∈ q.groupBy, ∀ v ∈ e.values, P v
  havingTree : ∀ c ∈ q.havingTree.toList, ∀ v ∈ c.values, P v
  orderBy : ∀ e ∈ q.orderBy, ∀ v ∈ e.values, P v
  setOperations : ∀ s ∈ q.setOperations, ∀ v ∈ s.values, P v
  source : ∀ r ∈ q.source.toList, P (.query r)
  returning : ∀ item ∈ q.returning, ∀ v ∈ item.values, P v
  data : ∀ c ∈ q.data, ∀ v ∈ c.values, P v
  rows : ∀ row ∈ q.rows, ∀ c ∈ row, ∀ v ∈ c.values, P v
  leading : ∀ f ∈ q.leading, P (.fragment f)
  trailing : ∀ f ∈ q.trailing, P (.fragment f)

theorem all_parts {P : Value → Prop} {q : Query} (each : ∀ v ∈ q.parts, P v) : q.AllParts P := by
  simp only [Query.parts, List.forall_mem_append, List.forall_mem_flatMap, List.forall_mem_singleton] at each
  obtain ⟨⟨⟨⟨⟨⟨⟨⟨⟨⟨⟨⟨⟨items, tables⟩, joins⟩, filter⟩, groups⟩, having⟩, orders⟩, operations⟩, source⟩, returning⟩,
    data⟩, rows⟩, leading⟩, trailing⟩ := each
  exact ⟨items, tables, joins, filter, groups, having, orders, operations, source, returning, data, rows, leading,
    trailing⟩

theorem list_within {α : Type} [SizeOf α] {held : α → List Value} (each : ∀ a, Within (sizeOf a) (held a))
    (as : List α) : Within (sizeOf as) (as.flatMap held) :=
  within_flat_map fun a member => within_mono (each a) (Nat.le_of_lt (List.sizeOf_lt_of_mem member))

theorem option_within {α : Type} [SizeOf α] {held : α → List Value} (each : ∀ a, Within (sizeOf a) (held a))
    (o : Option α) : Within (sizeOf o) (o.toList.flatMap held) := by
  cases o with
  | none => exact within_nil _
  | some a =>
      simp only [Option.toList_some, List.flatMap_singleton, Option.some.sizeOf_spec]
      exact within_mono (each a) (by omega)

theorem expr_values_within (e : Expr) : Within (sizeOf e) e.values := by
  cases e with
  | raw text => exact within_nil _
  | value v =>
      apply within_singleton
      simp only [Expr.value.sizeOf_spec]
      omega

theorem item_values_within (item : SelectItem) : Within (sizeOf item) item.values := by
  obtain ⟨aliasName, expr⟩ := item
  simp only [SelectItem.mk.sizeOf_spec]
  exact within_mono (expr_values_within expr) (by omega)

theorem operand_within (s : SetOperation) : Within (sizeOf s) s.values := by
  obtain ⟨operator, operand⟩ := s
  apply within_singleton
  simp only [SetOperation.mk.sizeOf_spec]
  omega

theorem cell_values_within (c : Cell) : Within (sizeOf c) c.values := by
  obtain ⟨column, value⟩ := c
  apply within_singleton
  simp only [Cell.mk.sizeOf_spec]
  omega

mutual
theorem node_values_within (n : Node) : Within (sizeOf n) (n.leaves.flatMap Prod.snd) := by
  match n with
  | .leaf text params =>
      intro v member
      rw [Node.leaves, List.flatMap_singleton] at member
      have inside : sizeOf v < sizeOf params := List.sizeOf_lt_of_mem member
      simp only [Node.leaf.sizeOf_spec]
      omega
  | .branch c =>
      rw [Node.leaves, Node.branch.sizeOf_spec]
      exact within_mono (tree_values_within c) (by omega)

theorem tree_values_within (c : Condition) : Within (sizeOf c) c.values := by
  match c with
  | ⟨combinator, children⟩ =>
      rw [Condition.values, Condition.leaves, Condition.mk.sizeOf_spec]
      exact within_mono (node_list_values_within children) (by omega)

theorem node_list_values_within (ns : List Node) : Within (sizeOf ns) ((leavesOf ns).flatMap Prod.snd) := by
  match ns with
  | [] => exact within_nil _
  | n :: ns =>
      rw [leavesOf, List.flatMap_append, within_append, List.cons.sizeOf_spec]
      exact ⟨within_mono (node_values_within n) (by omega), within_mono (node_list_values_within ns) (by omega)⟩
end

theorem join_tree_values_within (j : JoinTree) : Within (sizeOf j) j.values := by
  obtain ⟨aliasName, tree⟩ := j
  simp only [JoinTree.mk.sizeOf_spec]
  exact within_mono (tree_values_within tree) (by omega)

theorem fragment_values_within (fs : List Fragment) :
    Within (sizeOf fs + 1) (fs.flatMap fun f => [.fragment f]) := by
  rw [← List.map_eq_flatMap]
  exact fragments_bound_within fs

theorem source_values_within (source : Option Query) :
    Within (sizeOf source + 1) (source.toList.flatMap fun q => [.query q]) := by
  cases source with
  | none => exact within_nil _
  | some q =>
      apply within_singleton
      simp only [Value.query.sizeOf_spec, Option.some.sizeOf_spec]
      omega

theorem query_parts_within (q : Query) : Within (sizeOf q) q.parts := by
  have fields := q.sizeOf_fields
  simp only [Query.parts, within_append]
  refine ⟨⟨⟨⟨⟨⟨⟨⟨⟨⟨⟨⟨⟨?_, ?_⟩, ?_⟩, ?_⟩, ?_⟩, ?_⟩, ?_⟩, ?_⟩, ?_⟩, ?_⟩, ?_⟩, ?_⟩, ?_⟩, ?_⟩
  · exact within_mono (list_within item_values_within q.items) (by omega)
  · exact within_mono (list_within (fun _ => source_bound_within) q.tables) (by omega)
  · exact within_mono (list_within join_tree_values_within q.joinTrees) (by omega)
  · exact within_mono (option_within tree_values_within q.whereTree) (by omega)
  · exact within_mono (list_within expr_values_within q.groupBy) (by omega)
  · exact within_mono (option_within tree_values_within q.havingTree) (by omega)
  · exact within_mono (list_within expr_values_within q.orderBy) (by omega)
  · exact within_mono (list_within operand_within q.setOperations) (by omega)
  · exact within_mono (source_values_within q.source) (by omega)
  · exact within_mono (list_within item_values_within q.returning) (by omega)
  · exact within_mono (list_within cell_values_within q.data) (by omega)
  · exact within_mono (list_within (fun row => list_within cell_values_within row) q.rows) (by omega)
  · exact within_mono (fragment_values_within q.leading) (by omega)
  · exact within_mono (fragment_values_within q.trailing) (by omega)

theorem parts_within (v : Value) : Within (sizeOf v) v.parts := by
  cases v with
  | array vs =>
      intro x member
      have inside : sizeOf x < sizeOf vs := List.sizeOf_lt_of_mem member
      simp only [Value.array.sizeOf_spec]
      omega
  | fragment f =>
      intro x member
      have inside : sizeOf x < sizeOf f.params := List.sizeOf_lt_of_mem member
      cases f
      simp only [Value.fragment.sizeOf_spec, Fragment.mk.sizeOf_spec] at inside ⊢
      omega
  | query q =>
      rw [Value.query.sizeOf_spec]
      exact within_mono (query_parts_within q) (by omega)
  | _ => exact within_nil _

theorem part_induct {P : Value → Prop} (step : ∀ v : Value, (∀ x ∈ v.parts, P x) → P v) (v : Value) : P v :=
  step v fun x _ => part_induct step x
termination_by sizeOf v
decreasing_by
  rename_i member
  exact parts_within v x member

-- What stands anywhere in a value, itself included.
inductive Value.Contains : Value → Value → Prop
  | self (v : Value) : v.Contains v
  | part {v x w : Value} : x ∈ v.parts → x.Contains w → v.Contains w

theorem contains_iff (v w : Value) : v.Contains w ↔ w = v ∨ ∃ x ∈ v.parts, x.Contains w := by
  constructor
  · intro contains
    cases contains with
    | self => exact .inl rfl
    | part member inner => exact .inr ⟨_, member, inner⟩
  · rintro (rfl | ⟨x, member, inner⟩)
    · exact .self _
    · exact .part member inner

namespace Json

mutual
def numbers : Json → List Double
  | .float x => [x]
  | .array items => itemNumbers items
  | .object fields => fieldNumbers fields
  | _ => []
termination_by structural x => x

def itemNumbers : List Json → List Double
  | [] => []
  | a :: as => a.numbers ++ itemNumbers as
termination_by structural x => x

def fieldNumbers : List (String × Json) → List Double
  | [] => []
  | (_, a) :: as => a.numbers ++ fieldNumbers as
termination_by structural x => x
end

end Json

-- The ON trees of a query are a map: no alias has two of them.
def Query.Keyed (q : Query) : Prop :=
  (q.joinTrees.map JoinTree.aliasName).Nodup

-- What the type of a value promises beyond its shape. A document has no number that is none.
def Value.Formed : Value → Prop
  | .json j => ∀ x ∈ j.numbers, x.isNaN = false
  | .query q => q.Keyed
  | _ => True

def Value.WellFormed (v : Value) : Prop :=
  ∀ w, v.Contains w → w.Formed

theorem well_formed_self {v : Value} (formed : v.WellFormed) : v.Formed :=
  formed v (.self v)

theorem well_formed_part {v x : Value} (formed : v.WellFormed) (member : x ∈ v.parts) : x.WellFormed :=
  fun w inner => formed w (.part member inner)

theorem well_formed_of {v : Value} (formed : v.Formed) (below : ∀ x ∈ v.parts, x.WellFormed) : v.WellFormed := by
  intro w contains
  obtain rfl | ⟨x, member, inner⟩ := (contains_iff v w).mp contains
  · exact formed
  · exact below x member w inner

end QueryBuilder

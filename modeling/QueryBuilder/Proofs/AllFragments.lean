import QueryBuilder.Proofs.BalancedPieces

/-!
What holds of every fragment.

Main statement: a property of all fragments holds of those that a value or a query has at any depth.
-/

set_option autoImplicit false

namespace QueryBuilder

variable {ok : Fragment → Prop} {n : Nat}

mutual
theorem node_every_of_below (below : ∀ v : Value, sizeOf v < n → v.Every ok) (m : Node) (small : sizeOf m ≤ n) :
    m.Every ok := by
  match m with
  | .leaf text vs =>
      refine .leaf text fun v member => below v ?_
      have smaller := List.sizeOf_lt_of_mem member
      simp only [Node.leaf.sizeOf_spec] at small
      omega
  | .branch c =>
      refine .branch (condition_every_of_below below c ?_)
      simp only [Node.branch.sizeOf_spec] at small
      omega
termination_by sizeOf m

theorem condition_every_of_below (below : ∀ v : Value, sizeOf v < n → v.Every ok) (c : Condition)
    (small : sizeOf c ≤ n) : c.Every ok := by
  match c with
  | ⟨combinator, ns⟩ =>
      refine .mk combinator fun m member => node_every_of_below below m ?_
      have smaller := List.sizeOf_lt_of_mem member
      simp only [Condition.mk.sizeOf_spec] at small
      omega
termination_by sizeOf c
decreasing_by
  have smaller := List.sizeOf_lt_of_mem member
  simp only [Condition.mk.sizeOf_spec]
  omega
end

theorem tree_every_of_below (below : ∀ v : Value, sizeOf v < n → v.Every ok) {tree : Option Condition}
    (small : sizeOf tree ≤ n) : ∀ c, tree = some c → c.Every ok := by
  rintro c rfl
  refine condition_every_of_below below c ?_
  simp only [Option.some.sizeOf_spec] at small
  omega

theorem fragment_every_of_below (below : ∀ v : Value, sizeOf v < n → v.Every ok) {f : Fragment}
    (small : sizeOf f + 1 < n) : f.Every ok := by
  have every : Value.Every ok (.fragment f) := below _ (by simp only [Value.fragment.sizeOf_spec]; omega)
  cases every with
  | atom atom => cases atom
  | fragment inner => exact inner

theorem query_every_of_below (below : ∀ v : Value, sizeOf v < n → v.Every ok) {q : Query}
    (small : sizeOf q + 1 < n) : q.Every ok := by
  have every : Value.Every ok (.query q) := below _ (by simp only [Value.query.sizeOf_spec]; omega)
  cases every with
  | atom atom => cases atom
  | query inner => exact inner

theorem expr_every_of_below (below : ∀ v : Value, sizeOf v < n → v.Every ok) {e : Expr} (small : sizeOf e ≤ n) :
    e.Every ok := by
  cases e with
  | raw text => exact .raw text
  | value v =>
      refine .value (below v ?_)
      simp only [Expr.value.sizeOf_spec] at small
      omega

theorem source_every_of_below (below : ∀ v : Value, sizeOf v < n → v.Every ok) {source : TableSource}
    (small : sizeOf source < n) : source.Every ok := by
  cases source with
  | name s => exact .name s
  | fragment f =>
      refine .fragment (fragment_every_of_below below ?_)
      simp only [TableSource.fragment.sizeOf_spec] at small
      omega
  | query q =>
      refine .query (query_every_of_below below ?_)
      simp only [TableSource.query.sizeOf_spec] at small
      omega

theorem query_every_of_parts (q : Query) (below : ∀ v : Value, sizeOf v < sizeOf q → v.Every ok) : q.Every ok := by
  have fields := q.sizeOf_fields
  have exprs {es : List Expr} (small : sizeOf es < sizeOf q) : ∀ e ∈ es, e.Every ok := by
    intro e member
    have smaller := List.sizeOf_lt_of_mem member
    exact expr_every_of_below below (by omega)
  have items {items : List SelectItem} (small : sizeOf items < sizeOf q) : ∀ item ∈ items, item.expr.Every ok := by
    intro item member
    have smaller := List.sizeOf_lt_of_mem member
    obtain ⟨aliasName, e⟩ := item
    simp only [SelectItem.mk.sizeOf_spec] at smaller
    change e.Every ok
    exact expr_every_of_below below (by omega)
  have cells {row : DataRow} (small : sizeOf row < sizeOf q) : ∀ c ∈ row, c.value.Every ok := by
    intro c member
    have smaller := List.sizeOf_lt_of_mem member
    obtain ⟨column, v⟩ := c
    simp only [Cell.mk.sizeOf_spec] at smaller
    exact below v (by omega)
  have fragments {fs : List Fragment} (small : sizeOf fs < sizeOf q) : ∀ f ∈ fs, f.Every ok := by
    intro f member
    have smaller := List.sizeOf_lt_of_mem member
    exact fragment_every_of_below below (by omega)
  constructor
  · exact items (by omega)
  · intro t member
    have smaller := List.sizeOf_lt_of_mem member
    obtain ⟨aliasName, source, role⟩ := t
    simp only [Table.mk.sizeOf_spec] at smaller
    change source.Every ok
    exact source_every_of_below below (by omega)
  · intro aliasName c found
    have smaller := Query.below_joinTree found
    exact condition_every_of_below below c (by simp only [Option.some.sizeOf_spec] at smaller; omega)
  · exact tree_every_of_below below (by omega)
  · exact exprs (by omega)
  · exact tree_every_of_below below (by omega)
  · exact exprs (by omega)
  · intro s member
    have smaller := List.sizeOf_lt_of_mem member
    obtain ⟨operator, v⟩ := s
    simp only [SetOperation.mk.sizeOf_spec] at smaller
    exact below v (by omega)
  · intro r found
    simp only [found, Option.some.sizeOf_spec] at fields
    exact query_every_of_below below (by omega)
  · exact items (by omega)
  · exact cells (by omega)
  · intro row member
    have smaller := List.sizeOf_lt_of_mem member
    exact cells (by omega)
  · exact fragments (by omega)
  · exact fragments (by omega)

-- What holds of all fragments holds of those that are found at any depth.
theorem value_every_of_all (all : ∀ f, ok f) (v : Value) : v.Every ok := by
  match v with
  | .null | .bool _ | .int _ | .float _ | .text _ | .bytes _ | .json _ | .uuid _ | .date _ | .timestamp _
  | .timestampTz _ | .param _ => exact .atom rfl
  | .array vs =>
      refine .array fun w member => ?_
      have smaller := List.sizeOf_lt_of_mem member
      exact value_every_of_all all w
  | .fragment f =>
      refine .fragment (.mk (all f) fun w member => ?_)
      have smaller := List.sizeOf_lt_of_mem member
      exact value_every_of_all all w
  | .query q => exact .query (query_every_of_parts q fun w smaller => value_every_of_all all w)
termination_by sizeOf v
decreasing_by
  · simp only [Value.array.sizeOf_spec]
    omega
  · cases f
    simp only [Value.fragment.sizeOf_spec, Fragment.mk.sizeOf_spec] at smaller ⊢
    omega
  · simp only [Value.query.sizeOf_spec]
    omega

theorem query_every_of_all (all : ∀ f, ok f) (q : Query) : q.Every ok :=
  query_every_of_parts q fun v _ => value_every_of_all all v

end QueryBuilder

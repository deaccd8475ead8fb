import Mathlib.Data.List.Forall2
import QueryBuilder.Proofs.Bindings
import QueryBuilder.Proofs.Sequencing

/-!
The parameters of the pieces of a statement, one lemma for each kind of piece: the fragment of a
piece holds what the piece binds, in order.
-/

set_option autoImplicit false

namespace QueryBuilder

def Fragment.flat (f : Fragment) : List Value :=
  flatAll f.params

@[simp] theorem flat_all_nil : flatAll [] = [] :=
  rfl

@[simp] theorem flat_all_singleton (v : Value) : flatAll [v] = v.flat :=
  List.flatMap_singleton _ _

theorem flat_of_fragment (f : Fragment) : (Value.fragment f).flat = f.flat :=
  flat_fragment f

theorem flat_all_flat_map {α : Type} (f : α → List Value) (items : List α) :
    flatAll (items.flatMap f) = items.flatMap fun x => flatAll (f x) :=
  List.flatMap_assoc

@[simp] theorem flat_append (f g : Fragment) : (f ++ g).flat = f.flat ++ g.flat :=
  flat_all_append f.params g.params

@[simp] theorem flat_literal (text : String) : (Fragment.literal text).flat = [] :=
  rfl

@[simp] theorem flat_empty : Fragment.empty.flat = [] :=
  rfl

@[simp] theorem flat_ident (i : Ident) : (Fragment.ident i).flat = [] :=
  rfl

@[simp] theorem flat_hole (v : Value) : (Fragment.hole v).flat = v.flat :=
  flat_all_singleton v

@[simp] theorem flat_untagged (f : Fragment) : f.untagged.flat = f.flat :=
  rfl

theorem params_parenthesized (f : Fragment) : (parenthesized f).params = f.params :=
  List.append_nil _

theorem params_join_with (sep : String) (fs : List Fragment) :
    (Fragment.joinWith sep fs).params = fs.flatMap Fragment.params := by
  fun_induction Fragment.joinWith sep fs with
  | case1 => rfl
  | case2 f => exact (List.flatMap_singleton _ f).symm
  | case3 f rest _ ih =>
      have literal : (Fragment.literal sep).params = [] := rfl
      rw [Fragment.append_params, Fragment.append_params, literal, List.append_nil, ih, List.flatMap_cons]

@[simp] theorem flat_parenthesized (f : Fragment) : (parenthesized f).flat = f.flat :=
  congrArg flatAll (params_parenthesized f)

@[simp] theorem flat_concat (fs : List Fragment) : (Fragment.concat fs).flat = fs.flatMap Fragment.flat := by
  induction fs with
  | nil => rfl
  | cons f rest ih => simp [Fragment.concat, ih]

@[simp] theorem flat_join_with (sep : String) (fs : List Fragment) :
    (Fragment.joinWith sep fs).flat = fs.flatMap Fragment.flat := by
  rw [Fragment.flat, params_join_with, flat_all_flat_map]
  rfl

-- Pieces that hold their items' values one by one hold the values of the list.
theorem flat_pieces {α : Type} {g : α → Fragment} {f : α → List Value} (each : ∀ x, (g x).flat = flatAll (f x))
    (items : List α) : (items.map g).flatMap Fragment.flat = flatAll (items.flatMap f) := by
  rw [List.flatMap_map, flat_all_flat_map]
  simp only [each]

theorem flat_pieces_of_values {α : Type} {g : α → Fragment} {f : α → Value} (each : ∀ x, (g x).flat = (f x).flat)
    (items : List α) : (items.map g).flatMap Fragment.flat = flatAll (items.map f) := by
  rw [flat_pieces (f := fun x => [f x]) fun x => by rw [each, flat_all_singleton], List.map_eq_flatMap]

-- The fragment of a result, where there is one, holds the parameters of these values.
abbrev Holds (vs : List Value) (r : Except Error Fragment) : Prop :=
  Yields (fun _ => True) (fun f => f.flat = flatAll vs) r

abbrev HoldAll (vs : List Value) (r : Except Error (List Fragment)) : Prop :=
  Yields (fun _ => True) (fun fs => fs.flatMap Fragment.flat = flatAll vs) r

theorem holds_flat {vs : List Value} {f : Fragment} (held : Holds vs (.ok f)) : f.flat = flatAll vs := by
  cases held
  assumption

theorem hold_all_cons {vs ws : List Value} {r : Except Error Fragment} {rs : Except Error (List Fragment)}
    (head : Holds vs r) (tail : HoldAll ws rs) : HoldAll (vs ++ ws) (r.bind fun f => rs.map fun fs => f :: fs) := by
  refine yields_bind head fun f _ first => yields_map tail fun fs rest => ?_
  rw [List.flatMap_cons, first, rest, flat_all_append]

theorem holds_clauses {rs : List (Except Error Fragment)} {vss : List (List Value)}
    (each : List.Forall₂ Holds vss rs) : Holds vss.flatten (clauses rs) := by
  induction each with
  | nil => exact .ok rfl
  | cons head _ ih =>
      rw [clauses_cons]
      refine yields_bind head fun f _ first => yields_map ih fun g rest => ?_
      rw [flat_append, first, rest, List.flatten_cons, flat_all_append]

theorem literal_holds (text : String) : Holds [] (.ok (.literal text)) :=
  .ok rfl

theorem value_flat_fragment (v : Value) : (valueFragment v).flat = flatAll v.bound := by
  match v with
  | .bool true | .bool false => rfl
  | .query q => simp [valueFragment, Value.bound]
  | .null | .int _ | .float _ | .text _ | .bytes _ | .json _ | .uuid _ | .date _ | .timestamp _ | .timestampTz _
  | .array _ | .param _ | .fragment _ => rfl

theorem expr_flat_fragment (e : Expr) : e.fragment.flat = flatAll e.bound := by
  cases e with
  | raw text => rfl
  | value v => exact value_flat_fragment v

theorem item_holds (item : SelectItem) : Holds item.expr.bound item.fragment := by
  obtain ⟨aliasName, e⟩ := item
  cases aliasName with
  | none => exact .ok (expr_flat_fragment e)
  | some name =>
      have named : Yields (fun _ => True) (fun _ => True) (Ident.quoted name) := by
        cases Ident.quoted name with
        | error fault => exact .error trivial
        | ok i => exact .ok trivial
      exact yields_map named fun i _ => by simp [expr_flat_fragment]

theorem item_list_holds (items : List SelectItem) : HoldAll (itemsBound items) (itemList items) := by
  induction items with
  | nil => exact .ok rfl
  | cons item rest ih =>
      rw [item_list_cons]
      exact hold_all_cons (item_holds item) ih

theorem items_hold (items : List SelectItem) : Holds (itemsBound items) (itemsFragment items) :=
  yields_map (item_list_holds items) fun fs listed => by rw [flat_join_with, listed]

theorem exprs_flat_clause (keyword : String) (exprs : List Expr) :
    (exprsClause keyword exprs).flat = flatAll (exprsBound exprs) := by
  cases exprs with
  | nil => rfl
  | cons e rest =>
      have listed := flat_pieces expr_flat_fragment (e :: rest)
      rw [exprsClause, if_neg (by simp), flat_append, flat_literal, List.nil_append, exprsFragment, flat_join_with]
      exact listed

theorem leaf_bound_of_markers {text : String} {params : List Value} (matching : Marker.count text = params.length) :
    leafBound text params = params := by
  unfold leafBound
  split
  · rw [if_neg (by simp [matching])]
  · rfl

-- The fragment of a result, where there is one, has just these parameters.
abbrev Binds (vs : List Value) (r : Except Error Fragment) : Prop :=
  Yields (fun _ => True) (fun f => f.params = vs) r

theorem holds_of_binds {vs : List Value} {r : Except Error Fragment} (binds : Binds vs r) : Holds vs r :=
  yields_mono binds fun _ params => congrArg flatAll params

-- A completed leaf keeps its parameter, unless that is the null that becomes `IS NULL`.
theorem leaf_binds (text : String) (params : List Value) : Binds (leafBound text params) (leafFragment text params) := by
  unfold leafFragment
  by_cases matching : Marker.count text = params.length
  · rw [if_pos matching, leaf_bound_of_markers matching]
    exact .ok rfl
  · rw [if_neg matching]
    split
    · rename_i v
      by_cases bare : Marker.count text = 0
      · rw [if_pos bare]
        apply Yields.ok
        cases v <;> simp [Value.isListLike, Value.isNull, leafBound, bare]
      · rw [if_neg bare]
        exact .error trivial
    · exact .error trivial

mutual
theorem blank_bound (n : Node) (blank : n.isBlank) : n.bound = [] := by
  cases n with
  | leaf text params => cases blank
  | branch c => exact blank_tree_bound c blank

theorem blank_tree_bound (c : Condition) (blank : c.isBlank) : c.bound = [] := by
  obtain ⟨combinator, children⟩ := c
  exact all_blank_bound children blank

theorem all_blank_bound (ns : List Node) (blank : allBlank ns) : nodesBound ns = [] := by
  match ns with
  | [] => rfl
  | n :: ns =>
      rw [allBlank, Bool.and_eq_true] at blank
      rw [nodesBound, blank_bound n blank.1, all_blank_bound ns blank.2, List.nil_append]
end

mutual
theorem node_binds (wrap : Bool) (n : Node) : Binds n.bound (n.emit wrap) := by
  cases n with
  | leaf text params =>
      apply yields_map (leaf_binds text params)
      intro f bound
      cases wrap with
      | false => exact bound
      | true => exact (params_parenthesized f).trans bound
  | branch c => exact condition_binds wrap c

theorem condition_binds (wrap : Bool) (c : Condition) : Binds c.bound (c.emit wrap) := by
  obtain ⟨combinator, children⟩ := c
  rw [Condition.emit]
  apply yields_map (nodes_bind _ children)
  intro fs bound
  have joined := (params_join_with (" " ++ combinator.keyword ++ " ") fs).trans bound
  dsimp only
  split
  · exact (params_parenthesized _).trans joined
  · exact joined

theorem nodes_bind (wrap : Bool) (ns : List Node) :
    Yields (fun _ => True) (fun fs => fs.flatMap Fragment.params = nodesBound ns) (emitSolid wrap ns) := by
  match ns with
  | [] => exact .ok rfl
  | n :: ns =>
      have tail := nodes_bind wrap ns
      rw [emit_solid_cons]
      by_cases blank : n.isBlank
      · rw [if_pos blank, nodesBound, blank_bound n blank, List.nil_append]
        exact tail
      · rw [if_neg blank]
        refine yields_bind (node_binds wrap n) fun f _ first => yields_map tail fun fs rest => ?_
        rw [List.flatMap_cons, first, rest, nodesBound]
end

theorem condition_clause_holds (keyword : String) (tree : Option Condition) :
    Holds (treeBound tree) (conditionClause keyword tree) := by
  cases tree with
  | none => exact .ok rfl
  | some c =>
      by_cases blank : c.isBlank
      · rw [conditionClause, if_pos blank, treeBound, blank_tree_bound c blank]
        exact .ok rfl
      · rw [conditionClause, if_neg blank]
        apply yields_map (holds_of_binds (condition_binds false c))
        intro f held
        rw [flat_append, flat_literal, List.nil_append, held]
        rfl

theorem table_flat_fragment (t : Table) : t.fragment.flat = flatAll t.source.bound := by
  obtain ⟨aliasName, source, role⟩ := t
  cases source with
  | name name => by_cases same : name = aliasName <;> simp [Table.fragment, same, TableSource.bound]
  | fragment f => simp [Table.fragment, TableSource.bound]
  | query q => simp [Table.fragment, TableSource.bound]

theorem table_flat_target (t : Table) : t.target.flat = flatAll t.source.bound := by
  have whole := table_flat_fragment t
  obtain ⟨aliasName, source, role⟩ := t
  cases source with
  | name name => rfl
  | fragment f => exact whole
  | query q => exact whole

theorem row_flat_tuple (names : List String) (row : DataRow) :
    (DataRow.tuple names row).flat = flatAll (DataRow.bound names row) := by
  rw [DataRow.tuple, flat_parenthesized, flat_join_with]
  refine flat_pieces (fun name => ?_) names
  cases row.get? name with
  | none => rfl
  | some v => exact value_flat_fragment v

theorem column_list_flat (columns : List Ident) : (columnList columns).flat = [] := by
  cases columns with
  | nil => rfl
  | cons i rest => simp [columnList, List.flatMap_map]

end QueryBuilder

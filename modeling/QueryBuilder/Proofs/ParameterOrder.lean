import QueryBuilder.Proofs.BoundPieces
import QueryBuilder.Proofs.Session
import QueryBuilder.Proofs.Shares

/-!
The order of the parameters.

Main statement: the parameters of a compiled query are what its clauses bind, clause after clause in
the order of its kind of statement, each value taken apart where it stands.
-/

set_option autoImplicit false

namespace QueryBuilder

namespace Query

theorem leading_flat (q : Query) : q.leadingClause.flat = flatAll (fragmentsBound q.leading) := by
  rw [leadingClause, flat_concat]
  exact flat_pieces_of_values (fun f => by simp [flat_of_fragment]) q.leading

theorem trailing_flat (q : Query) : q.trailingClause.flat = flatAll (fragmentsBound q.trailing) := by
  rw [trailingClause, flat_concat]
  exact flat_pieces_of_values (fun f => by simp [flat_of_fragment]) q.trailing

theorem set_operations_flat (q : Query) :
    q.setOperationsClause.flat = flatAll (q.setOperations.map SetOperation.operand) := by
  rw [setOperationsClause, flat_concat]
  exact flat_pieces_of_values (fun s => by simp) q.setOperations

theorem limit_flat (q : Query) : q.limitClause.flat = flatAll (countBound q.limit) := by
  rw [limitClause]
  cases q.limit with
  | none => rfl
  | some n => simp [Fragment.limitClause, countBound]

theorem offset_flat (q : Query) : q.offsetClause.flat = flatAll (countBound q.offset) := by
  rw [offsetClause]
  cases q.offset with
  | none => rfl
  | some n => simp [Fragment.offsetClause, countBound]

theorem main_holds {q : Query} {vs : List Value} {statement : Table → Except Error Fragment}
    (each : ∀ t, q.mainTable? = some t → Holds vs (statement t)) : Holds vs (q.withMain statement) := by
  rw [withMain]
  cases found : q.mainTable? with
  | none => exact .error trivial
  | some t => exact each t found

theorem main_bound_of_found {q : Query} {t : Table} (found : q.mainTable? = some t) : q.mainBound = t.source.bound := by
  simp [mainBound, found]

theorem on_clause_holds (q : Query) {kind : JoinKind} (crossing : kind ≠ .cross) (aliasName : String) :
    Holds (treeBound (q.joinTree? aliasName)) (q.onClause kind aliasName) := by
  rw [onClause, if_neg crossing]
  cases q.joinTree? aliasName with
  | none => exact .error trivial
  | some c =>
      by_cases blank : c.isBlank
      · simpa only [if_pos blank] using .error trivial
      · simpa only [if_neg blank] using condition_clause_holds " ON " (some c)

theorem join_clause_holds (q : Query) (t : Table) : Holds (q.joinBound t) (q.joinClause t) := by
  have table := table_flat_fragment t
  obtain ⟨aliasName, source, role⟩ := t
  cases role with
  | main => exact .ok rfl
  | listed => exact .ok rfl
  | joined kind =>
      by_cases crossing : kind = .cross
      · subst crossing
        apply Yields.ok
        simpa [joinBound] using table
      · have bound : q.joinBound ⟨aliasName, source, .joined kind⟩ = source.bound ++ treeBound (q.joinTree? aliasName) := by
          cases kind with
          | cross => exact absurd rfl crossing
          | _ => rfl
        rw [bound]
        apply yields_map (on_clause_holds q crossing aliasName)
        intro on held
        simp [table, held, flat_all_append]

theorem joins_clause_holds (q : Query) : Holds q.joinsBound q.joinsClause := by
  apply holds_clauses
  rw [List.forall₂_map_left_iff, List.forall₂_map_right_iff]
  exact List.forall₂_same.mpr fun t _ => q.join_clause_holds t

theorem tables_flat (tables : List Table) :
    (tables.map Table.fragment).flatMap Fragment.flat = flatAll (tables.flatMap fun t => t.source.bound) :=
  flat_pieces table_flat_fragment tables

theorem from_clause_holds (q : Query) : Holds (q.mainBound ++ q.listedBound ++ q.joinsBound) q.fromClause := by
  rw [fromClause]
  by_cases none : q.tables = []
  · have bare : q.mainTable? = .none := by
      simp [mainTable?, table?, none]
    have empty : q.mainBound ++ q.listedBound ++ q.joinsBound = [] := by
      simp [mainBound, bare, listedBound, listedTables, joinsBound, none]
    rw [if_pos (by simp [none]), empty]
    exact .ok rfl
  · rw [if_neg (by simpa using none)]
    apply main_holds
    intro t found
    have listed : (Fragment.concat (q.listedTables.map fun l => .literal ", " ++ l.fragment)).flat = flatAll q.listedBound := by
      rw [flat_concat]
      exact flat_pieces (fun l => by simp [table_flat_fragment]) q.listedTables
    have opening : Holds (t.source.bound ++ q.listedBound) (.ok (.literal " FROM " ++ t.fragment
        ++ .concat (q.listedTables.map fun l => .literal ", " ++ l.fragment))) := by
      apply Yields.ok
      rw [flat_append, flat_append, flat_literal, List.nil_append, table_flat_fragment, listed, flat_all_append]
    have both := holds_clauses (.cons opening (.cons q.joins_clause_holds .nil))
    simpa only [main_bound_of_found found, List.flatten_cons, List.flatten_nil, List.append_nil] using both

theorem returning_clause_holds (q : Query) : Holds (itemsBound q.returning) q.returningClause := by
  rw [returningClause]
  cases listed : q.returning with
  | nil => exact .ok rfl
  | cons item rest =>
      apply yields_map (items_hold (item :: rest))
      intro f held
      rw [flat_append, flat_literal, List.nil_append, held]

theorem select_statement_holds (q : Query) (select : q.kind = .select) : Holds q.bound q.selectStatement := by
  rw [selectStatement]
  by_cases none : q.items.isEmpty
  · rw [if_pos none]
    exact .error trivial
  · rw [if_neg none]
    have inOrder := holds_clauses (
      .cons (.ok q.leading_flat) <|
      .cons (literal_holds (if q.distinct then "SELECT DISTINCT " else "SELECT ")) <|
      .cons (items_hold q.items) <|
      .cons q.from_clause_holds <|
      .cons (condition_clause_holds " WHERE " q.whereTree) <|
      .cons (.ok (exprs_flat_clause " GROUP BY " q.groupBy)) <|
      .cons (condition_clause_holds " HAVING " q.havingTree) <|
      .cons (.ok (exprs_flat_clause " ORDER BY " q.orderBy)) <|
      .cons (.ok q.limit_flat) <|
      .cons (.ok q.offset_flat) <|
      .cons (.ok q.set_operations_flat) <|
      .cons (.ok q.trailing_flat) .nil)
    simpa only [bound, select, List.flatten_cons, List.flatten_nil, List.append_nil, List.nil_append,
      List.append_assoc] using inOrder

theorem parsed_columns_hold (names : List String) : Holds [] ((parseColumns names).map columnList) := by
  cases parseColumns names with
  | error e => exact .error trivial
  | ok columns => exact .ok (column_list_flat columns)

theorem source_columns_hold (q source : Query) : Holds [] ((q.sourceColumns source).map columnList) := by
  cases q.sourceColumns source with
  | error e => exact .error trivial
  | ok columns => exact .ok (column_list_flat columns)

theorem inserted_source_holds {q source : Query} (found : q.source = some source) (t : Table)
    (nested : Holds source.bound source.toFragment) :
    Holds q.insertedBound (q.insertedClause t (some source.toFragment)) := by
  have bound : flatAll q.insertedBound = flatAll source.bound := by
    rw [insertedBound, found, flat_all_singleton, flat_query]
  have text : Holds source.bound (source.toFragment.map .untagged) := yields_map nested fun f held => held
  have both := holds_clauses (.cons (source_columns_hold q source) (.cons (literal_holds " ") (.cons text .nil)))
  rw [inserted_clause_source found]
  simpa only [Holds, bound, List.flatten_cons, List.flatten_nil, List.append_nil, List.nil_append] using both

theorem inserted_rows_hold {q : Query} (absent : q.source = none) (t : Table)
    (text : Option (Except Error Fragment)) : Holds q.insertedBound (q.insertedClause t text) := by
  have bound : q.insertedBound = q.rowsToInsert.flatMap (DataRow.bound q.insertedNames) := by
    rw [insertedBound, absent]
  have rows : Holds q.insertedBound
      (.ok (.literal " VALUES" ++ .joinWith ", " (q.rowsToInsert.map (DataRow.tuple q.insertedNames)))) := by
    apply Yields.ok
    rw [flat_append, flat_literal, List.nil_append, flat_join_with, bound]
    exact flat_pieces (row_flat_tuple q.insertedNames) q.rowsToInsert
  have both := holds_clauses (.cons (parsed_columns_hold q.insertedNames) (.cons rows .nil))
  rw [inserted_clause_rows absent]
  by_cases none : q.rowsToInsert.isEmpty
  · rw [if_pos none]
    exact .error trivial
  · rw [if_neg none]
    simpa only [List.flatten_cons, List.flatten_nil, List.append_nil, List.nil_append] using both

theorem insert_statement_holds (q : Query) (insert : q.kind = .insert)
    (nested : ∀ source, q.source = some source → Holds source.bound source.toFragment) :
    Holds q.bound (q.insertStatement (q.source.map Query.toFragment)) := by
  apply main_holds
  intro t found
  have opening : Holds (fragmentsBound q.leading ++ q.mainBound)
      (.ok (q.leadingClause ++ .literal "INSERT INTO " ++ t.target)) := by
    apply Yields.ok
    rw [flat_append, flat_append, flat_literal, List.append_nil, leading_flat, table_flat_target,
      main_bound_of_found found, flat_all_append]
  have inserted : Holds q.insertedBound (q.insertedClause t (q.source.map Query.toFragment)) := by
    cases given : q.source with
    | none => exact inserted_rows_hold given t _
    | some source => exact inserted_source_holds given t (nested source given)
  have inOrder := holds_clauses (
    .cons opening <|
    .cons inserted <|
    .cons (.ok q.trailing_flat) <|
    .cons q.returning_clause_holds .nil)
  simpa only [bound, insert, List.flatten_cons, List.flatten_nil, List.append_nil, List.append_assoc] using inOrder

theorem assignment_holds (c : Cell) : Holds c.value.bound (assignment c) := by
  rw [assignment]
  cases Ident.parse c.column with
  | error e => exact .error trivial
  | ok i =>
      apply Yields.ok
      rw [flat_append, flat_append, flat_ident, flat_literal, List.nil_append, List.nil_append, value_flat_fragment]

theorem assignments_hold (row : DataRow) : HoldAll (row.flatMap fun c => c.value.bound) (assignments row) := by
  induction row with
  | nil => exact .ok rfl
  | cons c rest ih =>
      rw [assignments_cons]
      exact hold_all_cons (assignment_holds c) ih

theorem update_from_clause_holds (q : Query) (t : Table) : Holds q.listedBound (q.updateFromClause t) := by
  rw [updateFromClause]
  by_cases none : q.listedTables = []
  · have empty : q.listedBound = [] := by
      rw [listedBound, none, List.flatMap_nil]
    rw [if_pos (by simp [none]), empty]
    by_cases joins : q.hasJoins
    · rw [if_pos joins]
      exact .error trivial
    · rw [if_neg joins]
      exact .ok rfl
  · rw [if_neg (by simpa using none)]
    apply Yields.ok
    rw [flat_append, flat_literal, List.nil_append, flat_join_with]
    exact tables_flat q.listedTables

theorem update_statement_holds (q : Query) (update : q.kind = .update) : Holds q.bound q.updateStatement := by
  apply main_holds
  intro t found
  have opening : Holds (fragmentsBound q.leading ++ q.mainBound)
      (.ok (q.leadingClause ++ .literal "UPDATE " ++ t.fragment ++ .literal " SET ")) := by
    apply Yields.ok
    rw [flat_append, flat_append, flat_append, flat_literal, flat_literal, List.append_nil, List.append_nil,
      leading_flat, table_flat_fragment, main_bound_of_found found, flat_all_append]
  have set : Holds q.setBound ((assignments q.data).map (.joinWith ", ")) :=
    yields_map (assignments_hold q.data) fun fs held => (flat_join_with ", " fs).trans held
  have inOrder := holds_clauses (
    .cons opening <|
    .cons set <|
    .cons (q.update_from_clause_holds t) <|
    .cons q.joins_clause_holds <|
    .cons (condition_clause_holds " WHERE " q.whereTree) <|
    .cons (.ok q.trailing_flat) <|
    .cons q.returning_clause_holds .nil)
  by_cases none : q.data.isEmpty
  · rw [if_pos none]
    exact .error trivial
  · rw [if_neg none]
    simpa only [bound, update, List.flatten_cons, List.flatten_nil, List.append_nil, List.append_assoc] using inOrder

theorem delete_statement_holds (q : Query) (delete : q.kind = .delete) : Holds q.bound q.deleteStatement := by
  apply main_holds
  intro t found
  have opening : Holds (fragmentsBound q.leading ++ q.mainBound)
      (.ok (q.leadingClause ++ .literal "DELETE FROM " ++ t.fragment)) := by
    apply Yields.ok
    rw [flat_append, flat_append, flat_literal, List.append_nil, leading_flat, table_flat_fragment,
      main_bound_of_found found, flat_all_append]
  have inOrder := holds_clauses (
    .cons opening <|
    .cons (condition_clause_holds " WHERE " q.whereTree) <|
    .cons (.ok q.trailing_flat) <|
    .cons q.returning_clause_holds .nil)
  simpa only [bound, delete, List.flatten_cons, List.flatten_nil, List.append_nil, List.append_assoc] using inOrder

theorem truncate_statement_holds (q : Query) (truncate : q.kind = .truncate) : Holds q.bound q.truncateStatement := by
  refine main_holds fun t found => .ok ?_
  rw [flat_append, flat_append, flat_literal, List.nil_append, table_flat_target, trailing_flat, bound, truncate,
    main_bound_of_found found, flat_all_append]

-- The source of an INSERT stands in the statement itself; all other queries inside it are still values.
theorem marker_form_holds (q : Query) : Holds q.bound q.toFragment := by
  rw [toFragment_eq, statement]
  cases kind : q.kind with
  | select => exact q.select_statement_holds kind
  | insert => exact q.insert_statement_holds kind fun source found => marker_form_holds source
  | update => exact q.update_statement_holds kind
  | delete => exact q.delete_statement_holds kind
  | truncate => exact q.truncate_statement_holds kind
termination_by sizeOf q
decreasing_by
  have fields := q.sizeOf_fields
  simp only [found, Option.some.sizeOf_spec] at fields
  omega

end Query

-- Filling the markers of a text puts the scalars of its expansions one behind the other.
theorem fills_scalars {text : List Char} {es : List (List Piece)} {pieces : List Piece} (fills : Fills text es pieces) :
    scalars pieces = es.flatMap scalars := by
  induction fills with
  | done => rfl
  | escape behind ih => exact ih
  | marker e behind ih => rw [scalars_append, ih, List.flatMap_cons]
  | plain notMarker alone behind ih => exact ih

theorem scalars_separated (expansions : List (List Piece)) :
    scalars (separated expansions) = expansions.flatMap scalars := by
  fun_induction separated expansions with
  | case1 => rfl
  | case2 p => simp
  | case3 p rest _ ih =>
      have comma : scalars (literalPieces ", ") = [] := scalars_literal ", ".toList
      rw [scalars_append, scalars_append, comma, List.append_nil, ih, List.flatMap_cons]

theorem scalars_related {vs : List Value} {es : List (List Piece)}
    (related : List.Forall₂ (fun v e => scalars e = v.flat) vs es) : es.flatMap scalars = flatAll vs := by
  induction related with
  | nil => rfl
  | cons first _ ih =>
      rw [List.flatMap_cons, first, ih]
      rfl

theorem flat_atom {v : Value} (atom : v.isAtom) : v.flat = [v] := by
  cases v with
  | array | fragment | query => cases atom
  | _ => rw [Value.flat] <;> intros <;> contradiction

theorem flat_atoms (v : Value) : ∀ x ∈ v.flat, x.isAtom = true := by
  match v with
  | .array vs =>
      rw [flat_array]
      intro x member
      obtain ⟨u, held, inner⟩ := List.mem_flatMap.mp member
      have smaller := List.sizeOf_lt_of_mem held
      exact flat_atoms u x inner
  | .fragment f =>
      rw [flat_fragment]
      intro x member
      obtain ⟨u, held, inner⟩ := List.mem_flatMap.mp member
      have smaller := List.sizeOf_lt_of_mem held
      exact flat_atoms u x inner
  | .query q =>
      rw [flat_query]
      intro x member
      obtain ⟨u, held, inner⟩ := List.mem_flatMap.mp member
      have smaller := q.bound_within u held
      exact flat_atoms u x inner
  | .null | .bool _ | .int _ | .float _ | .text _ | .bytes _ | .json _ | .uuid _ | .date _ | .timestamp _
  | .timestampTz _ | .param _ =>
      rw [flat_atom rfl]
      exact List.forall_mem_singleton.mpr rfl
termination_by sizeOf v
decreasing_by
  · simp only [Value.array.sizeOf_spec]
    omega
  · cases f
    simp only [Value.fragment.sizeOf_spec, Fragment.mk.sizeOf_spec] at smaller ⊢
    omega
  · simp only [Value.query.sizeOf_spec]
    omega

theorem flat_all_atoms (vs : List Value) : ∀ x ∈ flatAll vs, x.isAtom = true := by
  intro x member
  obtain ⟨v, -, inner⟩ := List.mem_flatMap.mp member
  exact flat_atoms v x inner

theorem scalars_expand (v : Value) (pieces : List Piece) (expanded : v.expand = some pieces) :
    scalars pieces = v.flat := by
  refine expand_induct (P := fun v pieces => scalars pieces = v.flat) ?atom ?array ?fragment ?query v pieces expanded
  case atom =>
    intro v atom
    exact (flat_atom atom).symm
  case array =>
    intro vs es related
    rw [scalars_separated, scalars_related related, flat_array]
  case fragment =>
    intro f es pieces related fills
    rw [fills_scalars fills, scalars_related related, flat_fragment]
  case query =>
    intro q f pieces made inner
    have held := q.marker_form_holds
    rw [made] at held
    rw [inner, flat_fragment, flat_query]
    exact holds_flat held

theorem number_params_flat {text : String} {params : List Value} {c : Compiled}
    (numbered : number text params = .ok c) : c.params = flatAll params := by
  obtain ⟨pieces, expanded, rfl⟩ := number_expands.mp numbered
  obtain ⟨es, all, filled⟩ := Option.bind_eq_some_iff.mp expanded
  have related := (expand_all_related all).imp fun v e expanded => scalars_expand v e expanded
  rw [← scalars_related related, ← fills_scalars (fills_of_fill filled)]
  exact List.nil_append _

theorem compiled_params_flat {q : Query} {c : Compiled} (compiled : q.compile = .ok c) :
    c.params = flatAll q.bound := by
  have held := q.marker_form_holds
  rw [query_compile_bind] at compiled
  cases made : q.toFragment with
  | error e =>
      rw [made] at compiled
      cases compiled
  | ok f =>
      rw [made] at compiled held
      rw [number_params_flat compiled]
      exact holds_flat held

theorem compiled_params_atoms {q : Query} {c : Compiled} (compiled : q.compile = .ok c) :
    ∀ x ∈ c.params, x.isAtom = true := by
  rw [compiled_params_flat compiled]
  exact flat_all_atoms q.bound

end QueryBuilder

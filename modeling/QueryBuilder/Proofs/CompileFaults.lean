import QueryBuilder.Proofs.Contents
import QueryBuilder.Proofs.Names
import QueryBuilder.Proofs.NumberingFaults

/-!
What a query that was built step by step can still fail with.

Main statement: a query whose sub-queries were all built by the steps of some session compiles, or it
fails because something is missing in it or because markers and parameters do not match. The names in
it have been tried before, and trying them again never fails.
-/

set_option autoImplicit false

namespace QueryBuilder

-- A statement that lacks something, and markers that do not match their parameters.
def Error.isIncomplete : Error → Bool
  | .noMainTable .. | .noColumnsToSelect | .noJoinConditions .. | .noDataToInsert .. | .noDataToUpdate ..
  | .updateJoinWithoutFrom .. | .badParamCount .. | .missingParam .. | .extraParam .. | .emptyArray .. => true
  | _ => false

abbrev Completes {α : Type} (good : α → Prop) (r : Except Error α) : Prop :=
  Yields (fun e => e.isIncomplete = true) good r

-- No query inside holds a name that does not read.
def Value.Vetted (v : Value) : Prop :=
  ∀ r, v.Contains (.query r) → r.Named

def Fragment.Vetted (f : Fragment) : Prop :=
  ∀ v ∈ f.params, v.Vetted

theorem atom_vetted {v : Value} (atom : v.isAtom = true) : v.Vetted := by
  intro r contains
  cases v with
  | array | fragment | query => cases atom
  | _ =>
      cases contains with
      | part member inner => cases member

theorem vetted_part {v x : Value} (vetted : v.Vetted) (member : x ∈ v.parts) : x.Vetted :=
  fun r inner => vetted r (.part member inner)

theorem vetted_fragment {f : Fragment} (vetted : (Value.fragment f).Vetted) : f.Vetted :=
  fun _ member => vetted_part vetted member

theorem fragment_vetted {f : Fragment} (vetted : f.Vetted) : (Value.fragment f).Vetted := by
  intro r contains
  cases contains with
  | part member inner => exact vetted _ member r inner

theorem vetted_query {q : Query} (vetted : (Value.query q).Vetted) : q.Named ∧ q.AllParts Value.Vetted :=
  ⟨vetted q (.self _), all_parts fun _ member => vetted_part vetted member⟩

section Pieces

variable {f g : Fragment}

theorem vetted_literal (text : String) : (Fragment.literal text).Vetted :=
  List.forall_mem_nil _

theorem vetted_empty : Fragment.empty.Vetted :=
  List.forall_mem_nil _

theorem vetted_ident (i : Ident) : (Fragment.ident i).Vetted :=
  List.forall_mem_nil _

theorem vetted_hole {v : Value} (vetted : v.Vetted) : (Fragment.hole v).Vetted :=
  List.forall_mem_singleton.mpr vetted

theorem vetted_append (left : f.Vetted) (right : g.Vetted) : (f ++ g).Vetted :=
  List.forall_mem_append.mpr ⟨left, right⟩

theorem vetted_untagged (vetted : f.Vetted) : f.untagged.Vetted :=
  vetted

theorem vetted_keyword (text : String) (vetted : f.Vetted) : (.literal text ++ f : Fragment).Vetted :=
  vetted_append (vetted_literal text) vetted

theorem vetted_closed (text : String) (vetted : f.Vetted) : (f ++ .literal text).Vetted :=
  vetted_append vetted (vetted_literal text)

theorem vetted_parenthesized (vetted : f.Vetted) : (parenthesized f).Vetted :=
  vetted_closed ")" (vetted_keyword "(" vetted)

theorem vetted_concat {fs : List Fragment} (each : ∀ f ∈ fs, f.Vetted) : (Fragment.concat fs).Vetted := by
  induction fs with
  | nil => exact vetted_empty
  | cons f rest ih => exact vetted_append (each f (by simp)) (ih fun g member => each g (by simp [member]))

theorem vetted_join_with (separator : String) {fs : List Fragment} (each : ∀ f ∈ fs, f.Vetted) :
    (Fragment.joinWith separator fs).Vetted := by
  induction fs with
  | nil => exact vetted_empty
  | cons f rest ih =>
      cases rest with
      | nil => exact each f (by simp)
      | cons g rest =>
          have others := ih fun h member => each h (List.mem_cons_of_mem _ member)
          exact vetted_append (vetted_closed separator (each f (by simp))) others

-- One piece for each element of a list.
theorem vetted_mapped {α : Type} {piece : α → Fragment} {as : List α} (each : ∀ a ∈ as, (piece a).Vetted) :
    ∀ f ∈ as.map piece, f.Vetted := by
  intro f member
  obtain ⟨a, inside, rfl⟩ := List.mem_map.mp member
  exact each a inside

theorem completes_clauses {rs : List (Except Error Fragment)} (each : ∀ r ∈ rs, Completes Fragment.Vetted r) :
    Completes Fragment.Vetted (clauses rs) := by
  induction rs with
  | nil => exact .ok vetted_empty
  | cons r rest ih =>
      rw [clauses_cons]
      refine yields_bind (each r (by simp)) fun f _ first => ?_
      exact yields_map (ih fun s member => each s (by simp [member])) fun g others => vetted_append first others

theorem vetted_value_fragment {v : Value} (vetted : v.Vetted) : (valueFragment v).Vetted := by
  match v with
  | .bool true | .bool false => exact vetted_literal _
  | .query q => exact vetted_closed ")" (vetted_keyword "(" (vetted_hole vetted))
  | .null | .int _ | .float _ | .text _ | .bytes _ | .json _ | .uuid _ | .date _ | .timestamp _ | .timestampTz _
  | .array _ | .param _ | .fragment _ => exact vetted_hole vetted

theorem vetted_expr {e : Expr} (each : ∀ v ∈ e.values, v.Vetted) : e.fragment.Vetted := by
  cases e with
  | raw text => exact vetted_literal text
  | value v => exact vetted_value_fragment (each v (by simp [Expr.values]))

theorem vetted_exprs_clause (keyword : String) {exprs : List Expr} (each : ∀ e ∈ exprs, ∀ v ∈ e.values, v.Vetted) :
    (exprsClause keyword exprs).Vetted := by
  rw [exprsClause]
  by_cases none : exprs.isEmpty
  · rw [if_pos none]
    exact vetted_empty
  · rw [if_neg none]
    exact vetted_keyword keyword (vetted_join_with ", " (vetted_mapped fun e member => vetted_expr (each e member)))

theorem completes_item {item : SelectItem} (named : item.Named) (each : ∀ v ∈ item.values, v.Vetted) :
    Completes Fragment.Vetted item.fragment := by
  have expr := vetted_expr (e := item.expr) each
  obtain ⟨aliasName, e⟩ := item
  cases aliasName with
  | none => exact .ok expr
  | some aliasName =>
      obtain ⟨i, quoted⟩ := named aliasName rfl
      simp only [SelectItem.fragment, quoted]
      exact .ok (vetted_append (vetted_closed " AS " expr) (vetted_ident i))

theorem completes_items {items : List SelectItem} (named : ∀ item ∈ items, item.Named)
    (each : ∀ item ∈ items, ∀ v ∈ item.values, v.Vetted) : Completes Fragment.Vetted (itemsFragment items) := by
  have list : Completes (fun fs => ∀ f ∈ fs, Fragment.Vetted f) (itemList items) := by
    induction items with
    | nil => exact .ok (List.forall_mem_nil _)
    | cons item rest ih =>
        rw [item_list_cons]
        exact yields_cons (completes_item (named item (by simp)) (each item (by simp)))
          (ih (fun i member => named i (by simp [member])) fun i member => each i (by simp [member]))
  exact yields_map list fun fs vetted => vetted_join_with ", " vetted

theorem completes_leaf (text : String) {params : List Value} (each : ∀ v ∈ params, v.Vetted) :
    Completes Fragment.Vetted (leafFragment text params) := by
  cases made : leafFragment text params with
  | ok f => exact .ok fun v member => each v (below_leafFragment made v member)
  | error e =>
      have fault : e = .badParamCount text (Marker.count text) params.length := by
        unfold leafFragment at made
        repeat' split at made
        all_goals cases made
        all_goals rfl
      exact .error (by rw [fault]; rfl)

mutual
theorem completes_node (wrap : Bool) (n : Node) (each : ∀ leaf ∈ n.leaves, ∀ v ∈ leaf.2, v.Vetted) :
    Completes Fragment.Vetted (n.emit wrap) := by
  match n with
  | .leaf text params =>
      refine yields_map (completes_leaf text (each (text, params) (by simp [Node.leaves]))) fun f vetted => ?_
      cases wrap with
      | false => exact vetted
      | true => exact vetted_parenthesized vetted
  | .branch c => exact completes_emit wrap c each

theorem completes_emit (wrap : Bool) (c : Condition) (each : ∀ leaf ∈ c.leaves, ∀ v ∈ leaf.2, v.Vetted) :
    Completes Fragment.Vetted (c.emit wrap) := by
  match c with
  | ⟨combinator, children⟩ =>
      rw [Condition.emit]
      refine yields_map (completes_emit_solid _ children each) fun fs vetted => ?_
      have joined := vetted_join_with (" " ++ combinator.keyword ++ " ") vetted
      dsimp only
      split
      · exact vetted_parenthesized joined
      · exact joined

theorem completes_emit_solid (wrap : Bool) (ns : List Node) (each : ∀ leaf ∈ leavesOf ns, ∀ v ∈ leaf.2, v.Vetted) :
    Completes (fun fs => ∀ f ∈ fs, Fragment.Vetted f) (emitSolid wrap ns) := by
  match ns with
  | [] => exact .ok (List.forall_mem_nil _)
  | n :: ns =>
      rw [leavesOf, List.forall_mem_append] at each
      have tail := completes_emit_solid wrap ns each.2
      rw [emit_solid_cons]
      by_cases blank : n.isBlank
      · rwa [if_pos blank]
      · rw [if_neg blank]
        exact yields_cons (completes_node wrap n each.1) tail
end

theorem completes_tree {c : Condition} (each : ∀ v ∈ c.values, v.Vetted) : Completes Fragment.Vetted c.toFragment :=
  completes_emit false c (List.forall_mem_flatMap.mp each)

theorem completes_condition_clause (keyword : String) {tree : Option Condition}
    (each : ∀ c ∈ tree.toList, ∀ v ∈ c.values, v.Vetted) : Completes Fragment.Vetted (conditionClause keyword tree) := by
  cases tree with
  | none => exact .ok vetted_empty
  | some c =>
      rw [conditionClause]
      by_cases blank : c.isBlank
      · rw [if_pos blank]
        exact .ok vetted_empty
      · rw [if_neg blank]
        exact yields_map (completes_tree (each c (by simp))) fun f vetted => vetted_keyword keyword vetted

theorem vetted_table {t : Table} (each : ∀ v ∈ t.values, v.Vetted) : t.fragment.Vetted := by
  obtain ⟨aliasName, source, role⟩ := t
  have named : (Fragment.literal " AS " ++ Fragment.literal aliasName).Vetted :=
    vetted_keyword " AS " (vetted_literal aliasName)
  cases source with
  | name name =>
      by_cases same : name = aliasName
      · simp only [Table.fragment, if_pos same]
        exact vetted_literal name
      · simp only [Table.fragment, if_neg same]
        exact vetted_keyword name named
  | fragment f => exact vetted_append (vetted_hole (each (.fragment f) (by simp [Table.values, TableSource.bound]))) named
  | query q =>
      have inner := vetted_hole (each (.query q) (by simp [Table.values, TableSource.bound]))
      exact vetted_append (vetted_closed ")" (vetted_keyword "(" inner)) named

theorem vetted_target {t : Table} (each : ∀ v ∈ t.values, v.Vetted) : t.target.Vetted := by
  have whole := vetted_table each
  obtain ⟨aliasName, source, role⟩ := t
  cases source with
  | name name => exact vetted_literal name
  | fragment f => exact whole
  | query q => exact whole

theorem vetted_tuple (names : List String) {row : DataRow} (each : ∀ c ∈ row, ∀ v ∈ c.values, v.Vetted) :
    (DataRow.tuple names row).Vetted := by
  refine vetted_parenthesized (vetted_join_with ", " (vetted_mapped fun name _ => ?_))
  cases found : DataRow.get? row name with
  | none => exact vetted_literal "DEFAULT"
  | some v =>
      obtain ⟨c, first, rfl⟩ := Option.map_eq_some_iff.mp found
      exact vetted_value_fragment (each c (List.mem_of_find?_eq_some first) c.value (by simp [Cell.values]))

theorem vetted_column_list (columns : List Ident) : (columnList columns).Vetted := by
  rw [columnList]
  by_cases none : columns.isEmpty
  · rw [if_pos none]
    exact vetted_empty
  · rw [if_neg none]
    exact vetted_parenthesized (vetted_join_with ", " (vetted_mapped fun i _ => vetted_ident i))

theorem completes_assignments {row : DataRow} (named : row.Named) (each : ∀ c ∈ row, ∀ v ∈ c.values, v.Vetted) :
    Completes (fun fs => ∀ f ∈ fs, Fragment.Vetted f) (Query.assignments row) := by
  induction row with
  | nil => exact .ok (List.forall_mem_nil _)
  | cons c rest ih =>
      obtain ⟨first, others⟩ := List.forall_mem_cons.mp named
      obtain ⟨i, assigned⟩ := assignment_total first
      have value : (valueFragment c.value).Vetted :=
        vetted_value_fragment (each c (by simp) c.value (by simp [Cell.values]))
      rw [assignments_cons, assigned]
      exact yields_cons (.ok (vetted_append (vetted_closed " = " (vetted_ident i)) value))
        (ih others fun d member => each d (by simp [member]))

end Pieces

section Statements

variable {q : Query}

theorem vetted_leading_clause (parts : q.AllParts Value.Vetted) : q.leadingClause.Vetted :=
  vetted_concat (vetted_mapped fun f member =>
    vetted_closed " " (vetted_untagged (vetted_fragment (parts.leading f member))))

theorem vetted_trailing_clause (parts : q.AllParts Value.Vetted) : q.trailingClause.Vetted :=
  vetted_concat (vetted_mapped fun f member =>
    vetted_keyword " " (vetted_untagged (vetted_fragment (parts.trailing f member))))

theorem vetted_set_operations_clause (parts : q.AllParts Value.Vetted) : q.setOperationsClause.Vetted := by
  refine vetted_concat (vetted_mapped fun s member => ?_)
  have operand := vetted_hole (parts.setOperations s member s.operand (by simp [SetOperation.values]))
  have operator : (Fragment.literal " " ++ .literal s.operator.keyword ++ .literal " (").Vetted :=
    vetted_closed " (" (vetted_keyword " " (vetted_literal _))
  exact vetted_closed ")" (vetted_append operator operand)

theorem vetted_limit_clause (q : Query) : q.limitClause.Vetted := by
  rw [Query.limitClause]
  cases q.limit with
  | none => exact vetted_empty
  | some n => exact vetted_keyword " LIMIT " (vetted_hole (atom_vetted rfl))

theorem vetted_offset_clause (q : Query) : q.offsetClause.Vetted := by
  rw [Query.offsetClause]
  cases q.offset with
  | none => exact vetted_empty
  | some n => exact vetted_keyword " OFFSET " (vetted_hole (atom_vetted rfl))

theorem completes_with_main {statement : Table → Except Error Fragment}
    (each : ∀ t ∈ q.tables, Completes Fragment.Vetted (statement t)) :
    Completes Fragment.Vetted (q.withMain statement) := by
  rw [Query.withMain]
  cases found : q.mainTable? with
  | none => exact .error rfl
  | some t => exact each t (Query.mem_tables_of_main found)

theorem completes_on_clause (parts : q.AllParts Value.Vetted) (kind : JoinKind) (aliasName : String) :
    Completes Fragment.Vetted (q.onClause kind aliasName) := by
  rw [Query.onClause]
  by_cases cross : kind = .cross
  · rw [if_pos cross]
    exact .ok vetted_empty
  · rw [if_neg cross]
    cases found : q.joinTree? aliasName with
    | none => exact .error rfl
    | some c =>
        by_cases blank : c.isBlank
        · simpa only [if_pos blank] using .error rfl
        · obtain ⟨j, first, rfl⟩ := Option.map_eq_some_iff.mp found
          simp only [if_neg blank]
          apply completes_condition_clause
          simpa [JoinTree.values] using parts.joinTrees j (List.mem_of_find?_eq_some first)

theorem completes_join_clause (parts : q.AllParts Value.Vetted) {t : Table} (member : t ∈ q.tables) :
    Completes Fragment.Vetted (q.joinClause t) := by
  have table := vetted_table (parts.tables t member)
  rw [Query.joinClause]
  cases t.role with
  | main => exact .ok vetted_empty
  | listed => exact .ok vetted_empty
  | joined kind =>
      refine yields_map (completes_on_clause parts kind t.aliasName) fun on vetted => ?_
      have keyword : (Fragment.literal " " ++ .literal kind.keyword ++ .literal " ").Vetted :=
        vetted_closed " " (vetted_keyword " " (vetted_literal _))
      exact vetted_append (vetted_append keyword table) vetted

theorem completes_joins_clause (parts : q.AllParts Value.Vetted) : Completes Fragment.Vetted q.joinsClause := by
  refine completes_clauses fun r member => ?_
  obtain ⟨t, inside, rfl⟩ := List.mem_map.mp member
  exact completes_join_clause parts inside

theorem completes_from_clause (parts : q.AllParts Value.Vetted) : Completes Fragment.Vetted q.fromClause := by
  have listed : (Fragment.concat (q.listedTables.map fun l => .literal ", " ++ l.fragment)).Vetted :=
    vetted_concat (vetted_mapped fun l member =>
      vetted_keyword ", " (vetted_table (parts.tables l (Query.mem_tables_of_listed member))))
  rw [Query.fromClause]
  by_cases none : q.tables.isEmpty
  · rw [if_pos none]
    exact .ok vetted_empty
  · rw [if_neg none]
    refine completes_with_main fun t member => completes_clauses ?_
    simp only [List.forall_mem_cons]
    have main := vetted_keyword " FROM " (vetted_table (parts.tables t member))
    exact ⟨.ok (vetted_append main listed), completes_joins_clause parts, List.forall_mem_nil _⟩

theorem completes_returning_clause (named : q.Named) (parts : q.AllParts Value.Vetted) :
    Completes Fragment.Vetted q.returningClause := by
  rw [Query.returningClause]
  by_cases none : q.returning.isEmpty
  · rw [if_pos none]
    exact .ok vetted_empty
  · rw [if_neg none]
    exact yields_map (completes_items named.returning parts.returning) fun f vetted => vetted_keyword " RETURNING " vetted

theorem completes_select_statement (named : q.Named) (parts : q.AllParts Value.Vetted) :
    Completes Fragment.Vetted q.selectStatement := by
  rw [Query.selectStatement]
  by_cases none : q.items.isEmpty
  · rw [if_pos none]
    exact .error rfl
  · rw [if_neg none]
    apply completes_clauses
    simp only [List.forall_mem_cons]
    exact ⟨.ok (vetted_leading_clause parts), .ok (vetted_literal _), completes_items named.items parts.items,
      completes_from_clause parts, completes_condition_clause " WHERE " parts.whereTree,
      .ok (vetted_exprs_clause " GROUP BY " parts.groupBy), completes_condition_clause " HAVING " parts.havingTree,
      .ok (vetted_exprs_clause " ORDER BY " parts.orderBy), .ok (vetted_limit_clause q), .ok (vetted_offset_clause q),
      .ok (vetted_set_operations_clause parts), .ok (vetted_trailing_clause parts), List.forall_mem_nil _⟩

theorem completes_inserted_source (named : q.Named) {source : Query} (found : q.source = some source) (t : Table)
    {text : Except Error Fragment} (inner : Completes Fragment.Vetted text) :
    Completes Fragment.Vetted (q.insertedClause t (some text)) := by
  obtain ⟨columns, read⟩ := source_columns_total named source
  rw [inserted_clause_source found, read]
  apply completes_clauses
  simp only [List.forall_mem_cons]
  exact ⟨.ok (vetted_column_list columns), .ok (vetted_literal " "), yields_map inner fun f => vetted_untagged,
    List.forall_mem_nil _⟩

theorem completes_inserted_rows (named : q.Named) (parts : q.AllParts Value.Vetted) (absent : q.source = none) (t : Table)
    (text : Option (Except Error Fragment)) : Completes Fragment.Vetted (q.insertedClause t text) := by
  obtain ⟨columns, read⟩ := parse_columns_total (inserted_names_read named)
  have rows : (Fragment.joinWith ", " (q.rowsToInsert.map (DataRow.tuple q.insertedNames))).Vetted := by
    refine vetted_join_with ", " (vetted_mapped fun row member => vetted_tuple _ ?_)
    rcases List.mem_cons.mp (List.mem_filter.mp member).1 with rfl | listed
    · exact parts.data
    · exact parts.rows row listed
  rw [inserted_clause_rows absent, read]
  by_cases none : q.rowsToInsert.isEmpty
  · rw [if_pos none]
    exact .error rfl
  · rw [if_neg none]
    apply completes_clauses
    simp only [List.forall_mem_cons]
    exact ⟨.ok (vetted_column_list columns), .ok (vetted_keyword " VALUES" rows), List.forall_mem_nil _⟩

theorem completes_insert_statement (named : q.Named) (parts : q.AllParts Value.Vetted)
    (nested : ∀ source, q.source = some source → Completes Fragment.Vetted source.toFragment) :
    Completes Fragment.Vetted (q.insertStatement (q.source.map Query.toFragment)) := by
  refine completes_with_main fun t member => completes_clauses ?_
  have inserted : Completes Fragment.Vetted (q.insertedClause t (q.source.map Query.toFragment)) := by
    cases found : q.source with
    | none => exact completes_inserted_rows named parts found t _
    | some source => exact completes_inserted_source named found t (nested source found)
  have opening := vetted_append (vetted_closed "INSERT INTO " (vetted_leading_clause parts))
    (vetted_target (parts.tables t member))
  simp only [List.forall_mem_cons]
  exact ⟨.ok opening, inserted, .ok (vetted_trailing_clause parts), completes_returning_clause named parts,
    List.forall_mem_nil _⟩

theorem completes_update_from_clause (parts : q.AllParts Value.Vetted) (t : Table) :
    Completes Fragment.Vetted (q.updateFromClause t) := by
  rw [Query.updateFromClause]
  by_cases none : q.listedTables.isEmpty
  · rw [if_pos none]
    by_cases joins : q.hasJoins
    · rw [if_pos joins]
      exact .error rfl
    · rw [if_neg joins]
      exact .ok vetted_empty
  · rw [if_neg none]
    exact .ok (vetted_keyword " FROM " (vetted_join_with ", "
      (vetted_mapped fun l member => vetted_table (parts.tables l (Query.mem_tables_of_listed member)))))

theorem completes_update_statement (named : q.Named) (parts : q.AllParts Value.Vetted) :
    Completes Fragment.Vetted q.updateStatement := by
  refine completes_with_main fun t member => ?_
  by_cases none : q.data.isEmpty
  · rw [if_pos none]
    exact .error rfl
  · rw [if_neg none]
    have opening := vetted_closed " SET " (vetted_append (vetted_closed "UPDATE " (vetted_leading_clause parts))
      (vetted_table (parts.tables t member)))
    have set : Completes Fragment.Vetted ((Query.assignments q.data).map (.joinWith ", ")) :=
      yields_map (completes_assignments named.data parts.data) fun fs vetted => vetted_join_with ", " vetted
    apply completes_clauses
    simp only [List.forall_mem_cons]
    exact ⟨.ok opening, set, completes_update_from_clause parts t, completes_joins_clause parts,
      completes_condition_clause " WHERE " parts.whereTree, .ok (vetted_trailing_clause parts),
      completes_returning_clause named parts, List.forall_mem_nil _⟩

theorem completes_delete_statement (named : q.Named) (parts : q.AllParts Value.Vetted) :
    Completes Fragment.Vetted q.deleteStatement := by
  refine completes_with_main fun t member => completes_clauses ?_
  have opening := vetted_append (vetted_closed "DELETE FROM " (vetted_leading_clause parts))
    (vetted_table (parts.tables t member))
  simp only [List.forall_mem_cons]
  exact ⟨.ok opening, completes_condition_clause " WHERE " parts.whereTree, .ok (vetted_trailing_clause parts),
    completes_returning_clause named parts, List.forall_mem_nil _⟩

theorem completes_truncate_statement (parts : q.AllParts Value.Vetted) :
    Completes Fragment.Vetted q.truncateStatement := by
  refine completes_with_main fun t member => .ok ?_
  exact vetted_append (vetted_keyword "TRUNCATE " (vetted_target (parts.tables t member))) (vetted_trailing_clause parts)

-- By recursion on the source of an INSERT, whose statement is a clause of this one.
theorem completes_to_fragment (q : Query) (vetted : (Value.query q).Vetted) :
    Completes Fragment.Vetted q.toFragment := by
  obtain ⟨named, parts⟩ := vetted_query vetted
  rw [Query.toFragment_eq, Query.statement]
  cases q.kind with
  | select => exact completes_select_statement named parts
  | insert =>
      refine completes_insert_statement named parts fun source found => ?_
      exact completes_to_fragment source (parts.source source (by simp [found]))
  | update => exact completes_update_statement named parts
  | delete => exact completes_delete_statement named parts
  | truncate => exact completes_truncate_statement parts
termination_by sizeOf q
decreasing_by
  have fields := q.sizeOf_fields
  simp only [found, Option.some.sizeOf_spec] at fields
  omega

end Statements

theorem vetted_fails {v : Value} {e : Error} (fails : v.Fails e) (vetted : v.Vetted) : e.isIncomplete = true := by
  induction fails with
  | empty => rfl
  | item member _ ih => exact ih (vetted_part vetted member)
  | uneven _ fault => cases fault <;> rfl
  | param member _ ih => exact ih (vetted_part vetted member)
  | @unwritten q e failed => exact fault_of_error (completes_to_fragment q vetted) failed
  | @written q f e made _ ih => exact ih (fragment_vetted (good_of_ok (completes_to_fragment q vetted) made))

-- A query that some session has brought about.
def Query.Reached (q : Query) : Prop :=
  ∃ start actions d, d ∈ ((Session.begin start).run actions).drafts ∧ d.query = q

theorem reached_named {q : Query} (reached : q.Reached) : q.Named := by
  obtain ⟨start, actions, d, member, rfl⟩ := reached
  exact reachable_keeps named_kept member

theorem reached_query_only_incomplete (start : Start) (actions : List Action) (d : Draft)
    (reachable : d ∈ ((Session.begin start).run actions).drafts)
    (nested : ∀ r, (Value.query d.query).Contains (.query r) → r.Reached) :
    (∀ e, Run.answer Draft.compile d = .error e → e.isIncomplete = true) ∧
    ∀ r, (Value.query d.query).Contains (.query r) → r.Named ∧ r.NamesRead := by
  have vetted : (Value.query d.query).Vetted := fun r inside => reached_named (nested r inside)
  constructor
  · intro e failed
    have fails := compile_query_fails d.query
    rw [fresh_compile_answer d (reachable_fresh reachable)] at failed
    rw [failed] at fails
    exact vetted_fails (yields_fault fails) vetted
  · intro r inside
    exact ⟨vetted r inside, named_names_read (vetted r inside)⟩

-- Posts that are copied, and no column of them is selected.
def copiedPosts : Draft :=
  .ofQuery { Query.ofTable .insert "users" with
    source := some (.ofTable .select "posts")
    returning := [⟨some "first id", .raw "id"⟩] }

def copyActions : List Action :=
  [.call 0 (.returningAs "first id" (.raw "id")), .call 0 (.selectSource (.ofTable .select "posts"))]

theorem copied_posts_only_incomplete :
    copiedPosts ∈ ((Session.begin (.ofTable .insert "users")).run copyActions).drafts ∧
    (∀ r, (Value.query copiedPosts.query).Contains (.query r) → r.Reached) ∧
    Run.answer Draft.compile copiedPosts = .error .noColumnsToSelect ∧
    (∀ e, Run.answer Draft.compile copiedPosts = .error e → e.isIncomplete = true) ∧
    ∀ r, (Value.query copiedPosts.query).Contains (.query r) → r.Named ∧ r.NamesRead := by
  have reachable : copiedPosts ∈ ((Session.begin (.ofTable .insert "users")).run copyActions).drafts :=
    List.mem_singleton.mpr rfl
  have nested : ∀ r, (Value.query copiedPosts.query).Contains (.query r) → r.Reached := by
    intro r contains
    obtain same | ⟨x, member, inner⟩ := (contains_iff _ _).mp contains
    · cases same
      exact ⟨_, _, _, reachable, rfl⟩
    · cases List.mem_singleton.mp member
      obtain same | ⟨y, none, -⟩ := (contains_iff _ _).mp inner
      · cases same
        exact ⟨.ofTable .select "posts", [], _, List.mem_singleton_self _, rfl⟩
      · cases none
  have answered : Run.answer Draft.compile copiedPosts = .error .noColumnsToSelect :=
    rfl
  exact ⟨reachable, nested, answered, reached_query_only_incomplete _ _ copiedPosts reachable nested⟩

end QueryBuilder

import QueryBuilder.Proofs.Alike
import QueryBuilder.Proofs.NumberingSteps

/-!
Values never reach the text of a statement.

Main statement: two alike queries compile to one text, with parameters alike one by one, or fail
with one error.
-/

set_option autoImplicit false

namespace QueryBuilder

variable {link : Value → Value → Prop}

theorem alike_value_fragment {v w : Value} (alike : v.Alike link w) :
    (valueFragment v).Alike link (valueFragment w) := by
  have held := alike_hole alike
  cases alike with
  | null => exact held
  | bool b => cases b <;> exact alike_literal _
  | scalar left right linked => cases v <;> cases w <;> first | exact held | simp [Value.isScalar] at left right
  | array items => exact held
  | fragment inner => exact held
  | query inner => exact alike_append (alike_append (alike_literal "(") held) (alike_literal ")")

theorem alike_expr_fragment {a b : Expr} (alike : a.Alike link b) : a.fragment.Alike link b.fragment := by
  cases alike with
  | raw text => exact alike_literal text
  | value inner => exact alike_value_fragment inner

theorem agree_item_fragment {a b : SelectItem} (alike : a.Alike link b) :
    Agree (Fragment.Alike link) a.fragment b.fragment := by
  cases alike with
  | mk aliasName expr =>
      cases aliasName with
      | none => exact .ok (alike_expr_fragment expr)
      | some name =>
          exact agree_map (agree_refl (Ident.quoted name) fun _ => rfl) fun i j same => same ▸
            alike_append (alike_append (alike_expr_fragment expr) (alike_literal " AS ")) (alike_ident i)

theorem alike_item_column {a b : SelectItem} (alike : a.Alike link b) : a.column? = b.column? := by
  cases alike with
  | mk aliasName expr =>
      cases aliasName with
      | some name => rfl
      | none => cases expr <;> rfl

theorem agree_item_list {as bs : List SelectItem} (alike : List.Forall₂ (SelectItem.Alike link) as bs) :
    Agree (List.Forall₂ (Fragment.Alike link)) (itemList as) (itemList bs) := by
  induction alike with
  | nil => exact .ok .nil
  | cons head _ ih =>
      rw [item_list_cons, item_list_cons]
      exact agree_cons (agree_item_fragment head) ih

theorem agree_items_fragment {as bs : List SelectItem} (alike : List.Forall₂ (SelectItem.Alike link) as bs) :
    Agree (Fragment.Alike link) (itemsFragment as) (itemsFragment bs) :=
  agree_map (agree_item_list alike) fun _ _ related => alike_join_with ", " related

theorem alike_infer_columns {as bs : List SelectItem} (alike : List.Forall₂ (SelectItem.Alike link) as bs) :
    inferColumns as = inferColumns bs := by
  have same : as.mapM SelectItem.column? = bs.mapM SelectItem.column? := by
    induction alike with
    | nil => rfl
    | cons head _ ih => rw [List.mapM_cons, List.mapM_cons, alike_item_column head, ih]
  rw [inferColumns, inferColumns, same]

theorem alike_is_empty {α β : Type} {rel : α → β → Prop} {as : List α} {bs : List β} (alike : List.Forall₂ rel as bs) :
    as.isEmpty = bs.isEmpty := by
  cases alike <;> rfl

theorem alike_exprs_clause (keyword : String) {as bs : List Expr} (alike : List.Forall₂ (Expr.Alike link) as bs) :
    (exprsClause keyword as).Alike link (exprsClause keyword bs) := by
  rw [exprsClause, exprsClause, alike_is_empty alike]
  split
  · exact alike_of_text ""
  · refine alike_append (alike_literal keyword) (alike_join_with ", " ?_)
    exact List.rel_map (fun _ _ expr => alike_expr_fragment expr) alike

theorem alike_table_fragment {s t : Table} (alike : s.Alike link t) : s.fragment.Alike link t.fragment := by
  cases alike with
  | mk aliasName role source =>
      have named : (Fragment.literal " AS " ++ Fragment.literal aliasName).Alike link
          (Fragment.literal " AS " ++ Fragment.literal aliasName) :=
        alike_append (alike_literal _) (alike_literal _)
      cases source with
      | name s =>
          simp only [Table.fragment]
          split
          · exact alike_literal s
          · exact alike_append (alike_literal s) named
      | fragment inner => exact alike_append (alike_hole (.fragment inner)) named
      | query inner =>
          exact alike_append (alike_append (alike_append (alike_literal "(") (alike_hole (.query inner)))
            (alike_literal ")")) named

theorem alike_table_target {s t : Table} (alike : s.Alike link t) : s.target.Alike link t.target := by
  have whole := alike_table_fragment alike
  cases alike with
  | mk aliasName role source =>
      cases source with
      | name s => exact alike_literal s
      | fragment inner => exact whole
      | query inner => exact whole

theorem alike_find {α : Type} {rel : α → α → Prop} {p : α → Bool} {as bs : List α} (alike : List.Forall₂ rel as bs)
    (agree : ∀ a b, rel a b → p a = p b) : Option.Rel rel (as.find? p) (bs.find? p) := by
  induction alike with
  | nil => exact .none
  | @cons a b as bs head tail ih =>
      rw [List.find?_cons, List.find?_cons, agree a b head]
      split
      · exact .some head
      · exact ih

theorem alike_row_get {row other : DataRow} (alike : List.Forall₂ (Cell.Alike link) row other) (column : String) :
    Option.Rel (Value.Alike link) (row.get? column) (other.get? column) := by
  have found := alike_find (p := fun c => c.column == column) alike fun c d cell => by cases cell; rfl
  unfold DataRow.get?
  obtain ⟨left, right⟩ | ⟨c, d, left, right, cell⟩ := option_rel_cases found
  · rw [left, right]
    exact .none
  · rw [left, right]
    cases cell with
    | mk column value => exact .some value

theorem alike_tuple (names : List String) {row other : DataRow} (alike : List.Forall₂ (Cell.Alike link) row other) :
    (DataRow.tuple names row).Alike link (DataRow.tuple names other) := by
  refine alike_parenthesized (alike_join_with ", " ?_)
  rw [List.forall₂_map_left_iff, List.forall₂_map_right_iff, List.forall₂_same]
  intro name _
  obtain ⟨left, right⟩ | ⟨v, w, left, right, value⟩ := option_rel_cases (alike_row_get alike name)
  · rw [left, right]
    exact alike_literal "DEFAULT"
  · rw [left, right]
    exact alike_value_fragment value

theorem alike_add_columns (names : List String) {row other : DataRow}
    (alike : List.Forall₂ (Cell.Alike link) row other) : addColumns names row = addColumns names other := by
  induction alike generalizing names with
  | nil => rfl
  | cons head _ ih =>
      cases head with
      | mk column value => rw [addColumns, addColumns, ih]

theorem alike_collect_columns {rows others : List DataRow}
    (alike : List.Forall₂ (List.Forall₂ (Cell.Alike link)) rows others) :
    collectColumns rows = collectColumns others := by
  suffices folded : ∀ names, rows.foldl addColumns names = others.foldl addColumns names from folded []
  induction alike with
  | nil => intro names; rfl
  | cons head _ ih =>
      intro names
      rw [List.foldl_cons, List.foldl_cons, alike_add_columns names head, ih]

theorem agree_assignments {row other : DataRow} (alike : List.Forall₂ (Cell.Alike link) row other) :
    Agree (List.Forall₂ (Fragment.Alike link)) (Query.assignments row) (Query.assignments other) := by
  induction alike with
  | nil => exact .ok .nil
  | cons head _ ih =>
      rw [assignments_cons, assignments_cons]
      refine agree_cons ?_ ih
      cases head with
      | mk column value =>
          exact agree_map (agree_refl (Ident.parse column) fun _ => rfl) fun i j same => same ▸
            alike_append (alike_append (alike_ident i) (alike_literal " = ")) (alike_value_fragment value)

theorem alike_tables_of {ss ts : List Table} (alike : List.Forall₂ (Table.Alike link) ss ts) (role : TableRole) :
    List.Forall₂ (Table.Alike link) (ss.filter fun t => t.role == role) (ts.filter fun t => t.role == role) :=
  List.rel_filter (fun s t table => by cases table; rfl) alike

theorem alike_leading_clause {q r : Query} (leading : List.Forall₂ (Fragment.Alike link) q.leading r.leading) :
    q.leadingClause.Alike link r.leadingClause :=
  alike_concat (List.rel_map (fun _ _ f => alike_append (alike_untagged f) (alike_literal " ")) leading)

theorem alike_trailing_clause {q r : Query} (trailing : List.Forall₂ (Fragment.Alike link) q.trailing r.trailing) :
    q.trailingClause.Alike link r.trailingClause :=
  alike_concat (List.rel_map (fun _ _ f => alike_append (alike_literal " ") (alike_untagged f)) trailing)

theorem alike_set_operations_clause {q r : Query}
    (operations : List.Forall₂ (SetOperation.Alike link) q.setOperations r.setOperations) :
    q.setOperationsClause.Alike link r.setOperationsClause := by
  refine alike_concat (List.rel_map (fun a b operation => ?_) operations)
  cases operation with
  | mk operator operand =>
      exact alike_append (alike_append (alike_append (alike_append (alike_literal " ") (alike_literal operator.keyword))
        (alike_literal " (")) (alike_hole operand)) (alike_literal ")")

theorem alike_limit_clause {q r : Query} (limit : Option.Rel (fun m n => link (.int m) (.int n)) q.limit r.limit) :
    q.limitClause.Alike link r.limitClause := by
  unfold Query.limitClause
  obtain ⟨left, right⟩ | ⟨m, n, left, right, linked⟩ := option_rel_cases limit
  · rw [left, right]
    exact alike_of_text ""
  · rw [left, right]
    exact alike_append (alike_literal " LIMIT ") (alike_hole (.scalar rfl rfl linked))

theorem alike_offset_clause {q r : Query} (offset : Option.Rel (fun m n => link (.int m) (.int n)) q.offset r.offset) :
    q.offsetClause.Alike link r.offsetClause := by
  unfold Query.offsetClause
  obtain ⟨left, right⟩ | ⟨m, n, left, right, linked⟩ := option_rel_cases offset
  · rw [left, right]
    exact alike_of_text ""
  · rw [left, right]
    exact alike_append (alike_literal " OFFSET ") (alike_hole (.scalar rfl rfl linked))

theorem alike_main_table {q r : Query} (tables : List.Forall₂ (Table.Alike link) q.tables r.tables)
    (main : q.main = r.main) : Option.Rel (Table.Alike link) q.mainTable? r.mainTable? := by
  unfold Query.mainTable?
  rw [main]
  cases r.main with
  | none => exact .none
  | some name => exact alike_find tables fun s t table => by cases table; rfl

theorem agree_with_main {q r : Query} (kind : q.kind = r.kind)
    (tables : List.Forall₂ (Table.Alike link) q.tables r.tables) (main : q.main = r.main)
    {statement other : Table → Except Error Fragment}
    (agree : ∀ s t, s.Alike link t → Agree (Fragment.Alike link) (statement s) (other t)) :
    Agree (Fragment.Alike link) (q.withMain statement) (r.withMain other) := by
  unfold Query.withMain
  obtain ⟨left, right⟩ | ⟨s, t, left, right, table⟩ := option_rel_cases (alike_main_table tables main)
  · rw [left, right, kind]
    exact .error _
  · rw [left, right]
    exact agree s t table

theorem agree_on_clause {q r : Query} (kind : JoinKind) (aliasName : String)
    (trees : ∀ aliasName, Option.Rel (Condition.Alike link) (q.joinTree? aliasName) (r.joinTree? aliasName)) :
    Agree (Fragment.Alike link) (q.onClause kind aliasName) (r.onClause kind aliasName) := by
  unfold Query.onClause
  split
  · exact .ok (alike_of_text "")
  · obtain ⟨left, right⟩ | ⟨c, d, left, right, tree⟩ := option_rel_cases (trees aliasName)
    · rw [left, right]
      exact .error _
    · rw [left, right]
      dsimp only
      rw [alike_blank c d tree]
      split
      · exact .error _
      · exact agree_condition_clause " ON " (.some tree)

theorem agree_join_clause {q r : Query} {s t : Table} (alike : s.Alike link t)
    (trees : ∀ aliasName, Option.Rel (Condition.Alike link) (q.joinTree? aliasName) (r.joinTree? aliasName)) :
    Agree (Fragment.Alike link) (q.joinClause s) (r.joinClause t) := by
  have table := alike_table_fragment alike
  cases alike with
  | mk aliasName role source =>
      cases role with
      | main | listed => exact .ok (alike_of_text "")
      | joined kind =>
          refine agree_map (agree_on_clause kind aliasName trees) fun f g on => ?_
          exact alike_append (alike_append (alike_append (alike_append (alike_literal " ") (alike_literal kind.keyword))
            (alike_literal " ")) table) on

theorem agree_joins_clause {q r : Query} (tables : List.Forall₂ (Table.Alike link) q.tables r.tables)
    (trees : ∀ aliasName, Option.Rel (Condition.Alike link) (q.joinTree? aliasName) (r.joinTree? aliasName)) :
    Agree (Fragment.Alike link) q.joinsClause r.joinsClause :=
  agree_clauses (List.rel_map (fun _ _ table => agree_join_clause table trees) tables)

theorem agree_from_clause {q r : Query} (kind : q.kind = r.kind)
    (tables : List.Forall₂ (Table.Alike link) q.tables r.tables) (main : q.main = r.main)
    (trees : ∀ aliasName, Option.Rel (Condition.Alike link) (q.joinTree? aliasName) (r.joinTree? aliasName)) :
    Agree (Fragment.Alike link) q.fromClause r.fromClause := by
  unfold Query.fromClause
  rw [alike_is_empty tables]
  split
  · exact .ok (alike_of_text "")
  · refine agree_with_main kind tables main fun s t table => agree_clauses (.cons (.ok ?_) (.cons ?_ .nil))
    · refine alike_append (alike_append (alike_literal " FROM ") (alike_table_fragment table)) (alike_concat ?_)
      exact List.rel_map (fun _ _ listed => alike_append (alike_literal ", ") (alike_table_fragment listed))
        (alike_tables_of tables .listed)
    · exact agree_joins_clause tables trees

theorem agree_returning_clause {q r : Query}
    (returning : List.Forall₂ (SelectItem.Alike link) q.returning r.returning) :
    Agree (Fragment.Alike link) q.returningClause r.returningClause := by
  unfold Query.returningClause
  rw [alike_is_empty returning]
  split
  · exact .ok (alike_of_text "")
  · exact agree_map (agree_items_fragment returning) fun _ _ items => alike_append (alike_literal " RETURNING ") items

theorem agree_select_statement {q r : Query} (alike : q.Alike link r) :
    Agree (Fragment.Alike link) q.selectStatement r.selectStatement := by
  cases alike with
  | mk kind items distinct tables main trees whereTree groupBy havingTree orderBy limit offset operations columns
      source returning data rows leading trailing =>
      unfold Query.selectStatement
      rw [alike_is_empty items, distinct]
      split
      · exact .error _
      · refine agree_clauses (.cons (.ok (alike_leading_clause leading)) (.cons (.ok (alike_literal _)) ?_))
        refine .cons (agree_items_fragment items) (.cons (agree_from_clause kind tables main trees) ?_)
        refine .cons (agree_condition_clause " WHERE " whereTree) ?_
        refine .cons (.ok (alike_exprs_clause " GROUP BY " groupBy)) ?_
        refine .cons (agree_condition_clause " HAVING " havingTree) ?_
        refine .cons (.ok (alike_exprs_clause " ORDER BY " orderBy)) ?_
        refine .cons (.ok (alike_limit_clause limit)) (.cons (.ok (alike_offset_clause offset)) ?_)
        refine .cons (.ok (alike_set_operations_clause operations)) ?_
        exact .cons (.ok (alike_trailing_clause trailing)) .nil

theorem alike_rows_to_insert {q r : Query} (data : List.Forall₂ (Cell.Alike link) q.data r.data)
    (rows : List.Forall₂ (List.Forall₂ (Cell.Alike link)) q.rows r.rows) :
    List.Forall₂ (List.Forall₂ (Cell.Alike link)) q.rowsToInsert r.rowsToInsert :=
  List.rel_filter (fun row other cells => by cases cells <;> exact Iff.rfl) (.cons data rows)

theorem alike_inserted_names {q r : Query} (columns : q.columns = r.columns)
    (inserted : List.Forall₂ (List.Forall₂ (Cell.Alike link)) q.rowsToInsert r.rowsToInsert) :
    q.insertedNames = r.insertedNames := by
  unfold Query.insertedNames
  rw [columns, alike_collect_columns inserted]

theorem alike_source_columns {q r source other : Query} (columns : q.columns = r.columns)
    (alike : source.Alike link other) : q.sourceColumns source = r.sourceColumns other := by
  cases alike with
  | mk _ items =>
      unfold Query.sourceColumns
      rw [columns, alike_infer_columns items]

theorem alike_column_list (columns : List Ident) : (columnList columns).Alike link (columnList columns) := by
  unfold columnList
  split
  · exact alike_of_text ""
  · refine alike_parenthesized (alike_join_with ", " ?_)
    rw [List.forall₂_map_left_iff, List.forall₂_map_right_iff, List.forall₂_same]
    exact fun i _ => alike_ident i

theorem agree_column_list (columns : Except Error (List Ident)) :
    Agree (Fragment.Alike link) (columns.map columnList) (columns.map columnList) :=
  agree_map (agree_refl columns fun _ => rfl) fun names _ same => same ▸ alike_column_list names

theorem alike_alias {s t : Table} (alike : s.Alike link t) : s.aliasName = t.aliasName := by
  cases alike
  rfl

theorem agree_inserted_rows {q r : Query} {s t : Table} (absent : q.source = none) (other : r.source = none)
    (table : s.Alike link t) (columns : q.columns = r.columns)
    (inserted : List.Forall₂ (List.Forall₂ (Cell.Alike link)) q.rowsToInsert r.rowsToInsert) :
    Agree (Fragment.Alike link) (q.insertedClause s none) (r.insertedClause t none) := by
  rw [inserted_clause_rows absent, inserted_clause_rows other, alike_is_empty inserted,
    alike_inserted_names columns inserted, alike_alias table]
  split
  · exact .error _
  · refine agree_clauses (.cons (agree_column_list _) (.cons (.ok ?_) .nil))
    refine alike_append (alike_literal " VALUES") (alike_join_with ", " ?_)
    exact List.rel_map (fun _ _ row => alike_tuple _ row) inserted

theorem agree_inserted_source {q r source other : Query} (s t : Table) (columns : q.columns = r.columns)
    (found : q.source = some source) (foundOther : r.source = some other) (alike : source.Alike link other)
    {text otherText : Except Error Fragment} (agree : Agree (Fragment.Alike link) text otherText) :
    Agree (Fragment.Alike link) (q.insertedClause s (some text)) (r.insertedClause t (some otherText)) := by
  rw [inserted_clause_source found, inserted_clause_source foundOther, alike_source_columns columns alike]
  refine agree_clauses (.cons (agree_column_list _) (.cons (.ok (alike_literal " ")) (.cons ?_ .nil)))
  exact agree_map agree fun _ _ f => alike_untagged f

theorem alike_has_joins {q r : Query} (tables : List.Forall₂ (Table.Alike link) q.tables r.tables) :
    q.hasJoins = r.hasJoins := by
  unfold Query.hasJoins
  generalize q.tables = ss at tables ⊢
  generalize r.tables = ts at tables ⊢
  induction tables with
  | nil => rfl
  | cons head _ ih =>
      cases head with
      | mk aliasName role source => rw [List.any_cons, List.any_cons, ih]

theorem agree_update_from_clause {q r : Query} {s t : Table} (table : s.Alike link t)
    (tables : List.Forall₂ (Table.Alike link) q.tables r.tables) :
    Agree (Fragment.Alike link) (q.updateFromClause s) (r.updateFromClause t) := by
  have listed : List.Forall₂ (Table.Alike link) q.listedTables r.listedTables := alike_tables_of tables .listed
  unfold Query.updateFromClause
  rw [alike_is_empty listed, alike_has_joins tables, alike_alias table]
  split
  · split
    · exact .error _
    · exact .ok (alike_of_text "")
  · refine .ok (alike_append (alike_literal " FROM ") (alike_join_with ", " ?_))
    exact List.rel_map (fun _ _ inner => alike_table_fragment inner) listed

theorem agree_insert_statement {q r : Query} (alike : q.Alike link r)
    (nested : ∀ s t, q.source = some s → r.source = some t → s.Alike link t →
      Agree (Fragment.Alike link) s.toFragment t.toFragment) :
    Agree (Fragment.Alike link) (q.insertStatement (q.source.map Query.toFragment))
      (r.insertStatement (r.source.map Query.toFragment)) := by
  cases alike with
  | mk kind items distinct tables main trees whereTree groupBy havingTree orderBy limit offset operations columns
      source returning data rows leading trailing =>
      refine agree_with_main kind tables main fun s t table => ?_
      have target := alike_append (alike_append (alike_leading_clause leading) (alike_literal "INSERT INTO "))
        (alike_table_target table)
      refine agree_clauses (.cons (.ok target) (.cons ?_ ?_))
      · obtain ⟨left, right⟩ | ⟨sub, other, left, right, inner⟩ := option_rel_cases source
        · rw [left, right]
          exact agree_inserted_rows left right table columns (alike_rows_to_insert data rows)
        · rw [left, right]
          exact agree_inserted_source s t columns left right inner (nested sub other left right inner)
      · exact .cons (.ok (alike_trailing_clause trailing)) (.cons (agree_returning_clause returning) .nil)

theorem agree_update_statement {q r : Query} (alike : q.Alike link r) :
    Agree (Fragment.Alike link) q.updateStatement r.updateStatement := by
  cases alike with
  | mk kind items distinct tables main trees whereTree groupBy havingTree orderBy limit offset operations columns
      source returning data rows leading trailing =>
      refine agree_with_main kind tables main fun s t table => ?_
      rw [alike_is_empty data, alike_alias table]
      split
      · exact .error _
      · have opening := alike_append (alike_append (alike_append (alike_leading_clause leading)
          (alike_literal "UPDATE ")) (alike_table_fragment table)) (alike_literal " SET ")
        refine agree_clauses (.cons (.ok opening) (.cons ?_ ?_))
        · exact agree_map (agree_assignments data) fun _ _ cells => alike_join_with ", " cells
        · refine .cons (agree_update_from_clause table tables) (.cons (agree_joins_clause tables trees) ?_)
          refine .cons (agree_condition_clause " WHERE " whereTree) ?_
          exact .cons (.ok (alike_trailing_clause trailing)) (.cons (agree_returning_clause returning) .nil)

theorem agree_delete_statement {q r : Query} (alike : q.Alike link r) :
    Agree (Fragment.Alike link) q.deleteStatement r.deleteStatement := by
  cases alike with
  | mk kind items distinct tables main trees whereTree groupBy havingTree orderBy limit offset operations columns
      source returning data rows leading trailing =>
      refine agree_with_main kind tables main fun s t table => ?_
      have opening := alike_append (alike_append (alike_leading_clause leading) (alike_literal "DELETE FROM "))
        (alike_table_fragment table)
      refine agree_clauses (.cons (.ok opening) (.cons (agree_condition_clause " WHERE " whereTree) ?_))
      exact .cons (.ok (alike_trailing_clause trailing)) (.cons (agree_returning_clause returning) .nil)

theorem agree_truncate_statement {q r : Query} (alike : q.Alike link r) :
    Agree (Fragment.Alike link) q.truncateStatement r.truncateStatement := by
  cases alike with
  | mk kind items distinct tables main trees whereTree groupBy havingTree orderBy limit offset operations columns
      source returning data rows leading trailing =>
      refine agree_with_main kind tables main fun s t table => .ok ?_
      exact alike_append (alike_append (alike_literal "TRUNCATE ") (alike_table_target table))
        (alike_trailing_clause trailing)

theorem alike_kind {q r : Query} (alike : q.Alike link r) : q.kind = r.kind := by
  cases alike
  assumption

-- By recursion on the source of an INSERT, the only sub-query whose text is spliced at this stage.
theorem agree_to_fragment (q r : Query) (alike : q.Alike link r) :
    Agree (Fragment.Alike link) q.toFragment r.toFragment := by
  rw [Query.toFragment_eq, Query.toFragment_eq, Query.statement, Query.statement, alike_kind alike]
  split
  · exact agree_select_statement alike
  · refine agree_insert_statement alike fun source other found _ inner => ?_
    exact agree_to_fragment source other inner
  · exact agree_update_statement alike
  · exact agree_delete_statement alike
  · exact agree_truncate_statement alike
termination_by sizeOf q
decreasing_by
  have fields := q.sizeOf_fields
  simp only [found, Option.some.sizeOf_spec] at fields
  omega

structure Compiled.Alike (link : Value → Value → Prop) (c d : Compiled) : Prop where
  sql : c.sql = d.sql
  params : List.Forall₂ (Value.Alike link) c.params d.params

theorem alike_push_char {c d : Compiled} (alike : c.Alike link d) (char : Char) :
    (c.pushChar char).Alike link (d.pushChar char) :=
  ⟨congrArg (String.push · char) alike.sql, alike.params⟩

theorem alike_push_text {c d : Compiled} (alike : c.Alike link d) (text : String) :
    (c.pushText text).Alike link (d.pushText text) :=
  ⟨congrArg (· ++ text) alike.sql, alike.params⟩

-- Alike lists are of one length, so both sides count on to the same number.
theorem alike_push_param {c d : Compiled} (alike : c.Alike link d) {v w : Value} (value : v.Alike link w) :
    (c.pushParam v).Alike link (d.pushParam w) := by
  refine ⟨?_, List.rel_append alike.params (.cons value .nil)⟩
  simp only [Compiled.pushParam, alike.sql, alike.params.length_eq]

-- What the induction on a value gives of it.
def NumbersAlike (link : Value → Value → Prop) (v : Value) : Prop :=
  ∀ (w : Value) (sql : String) (position : Nat) (done other : Compiled), v.Alike link w → done.Alike link other →
    Agree (Compiled.Alike link) (numberValue sql position done v) (numberValue sql position other w)

theorem agree_number_text (sql : String) (text : List Char) (position : Nat) {done other : Compiled}
    {vs ws : List Value} (each : ∀ v ∈ vs, NumbersAlike link v) (alike : List.Forall₂ (Value.Alike link) vs ws)
    (state : done.Alike link other) :
    Agree (Compiled.Alike link) (numberText sql position done text vs) (numberText sql position other text ws) := by
  induction text using text_induct generalizing position done other vs ws with
  | done =>
      cases alike with
      | nil =>
          rw [number_text_done, number_text_done]
          exact .ok state
      | cons head tail =>
          rw [number_text_unused, number_text_unused, tail.length_eq]
          exact .error _
  | escape rest ih =>
      rw [number_text_escape, number_text_escape]
      exact ih position each alike (alike_push_char state '?')
  | marker rest ih =>
      cases alike with
      | nil =>
          rw [number_text_missing, number_text_missing]
          exact .error _
      | cons head tail =>
          rw [number_text_marker, number_text_marker]
          refine agree_bind (each _ (by simp) _ sql _ _ _ head state) fun next nextOther _ reached => ?_
          exact ih _ (fun v member => each v (by simp [member])) tail reached
  | plain c rest notMarker alone ih =>
      rw [number_text_plain _ _ _ _ notMarker alone, number_text_plain _ _ _ _ notMarker alone]
      exact ih position each alike (alike_push_char state c)

theorem agree_number_items (sql : String) (position : Nat) {done other : Compiled} {vs ws : List Value}
    (each : ∀ v ∈ vs, NumbersAlike link v) (alike : List.Forall₂ (Value.Alike link) vs ws)
    (state : done.Alike link other) :
    Agree (Compiled.Alike link) (numberItems sql position done vs) (numberItems sql position other ws) := by
  induction alike generalizing done other with
  | nil =>
      rw [number_items_nil, number_items_nil]
      exact .ok state
  | cons head _ ih =>
      rw [number_items_cons, number_items_cons]
      refine agree_bind (each _ (by simp) _ sql _ _ _ head (alike_push_text state ", ")) fun next other _ reached => ?_
      exact ih (fun v member => each v (by simp [member])) reached

theorem alike_atom {v w : Value} (alike : v.Alike link w) : v.isAtom = w.isAtom := by
  cases alike with
  | scalar left right _ => cases v <;> cases w <;> simp_all [Value.isScalar, Value.isAtom]
  | null | bool | array | fragment | query => rfl

theorem agree_number_value (v : Value) : NumbersAlike link v := by
  induction v using value_induct with
  | atom v atom =>
      intro w sql position done other alike state
      rw [number_value_atom _ _ _ atom, number_value_atom _ _ _ (alike_atom alike ▸ atom)]
      exact .ok (alike_push_param state alike)
  | array vs each =>
      intro w sql position done other alike state
      cases alike with
      | scalar left => cases left
      | array items =>
          cases items with
          | nil =>
              rw [number_value_empty, number_value_empty]
              exact .error _
          | cons head tail =>
              rw [number_value_array, number_value_array]
              refine agree_bind (each _ (by simp) _ sql _ _ _ head state) fun next other _ reached => ?_
              exact agree_number_items sql position (fun v member => each v (by simp [member])) tail reached
  | fragment f each =>
      intro w sql position done other alike state
      cases alike with
      | scalar left => cases left
      | fragment inner =>
          obtain ⟨text, params, _⟩ := inner
          rw [number_value_fragment, number_value_fragment, text]
          exact agree_number_text _ _ 0 each params state
  | query q each =>
      intro w sql position done other alike state
      cases alike with
      | scalar left => cases left
      | query inner =>
          rw [number_value_query, number_value_query]
          refine agree_bind (agree_to_fragment q _ inner) fun f g compiled spliced => ?_
          obtain ⟨text, params, _⟩ := spliced
          rw [text]
          exact agree_number_text _ _ 0 (each f compiled) params state

theorem agree_compile_fragment {f g : Fragment} (alike : f.Alike link g) :
    Agree (Compiled.Alike link) f.compile g.compile := by
  obtain ⟨text, params, _⟩ := alike
  unfold Fragment.compile number
  rw [text]
  exact agree_number_text _ _ 0 (fun v _ => agree_number_value v) params ⟨rfl, .nil⟩

theorem agree_compile_query {q r : Query} (alike : q.Alike link r) :
    Agree (Compiled.Alike link) q.compile r.compile := by
  rw [query_compile_bind, query_compile_bind]
  exact agree_bind (agree_to_fragment q r alike) fun _ _ _ spliced => agree_compile_fragment spliced

theorem values_never_reach_text (link : Value → Value → Prop) (q r : Query) (alike : q.Alike link r) :
    (∃ e, q.compile = .error e ∧ r.compile = .error e) ∨
    ∃ c d, q.compile = .ok c ∧ r.compile = .ok d ∧ c.sql = d.sql ∧
      List.Forall₂ (Value.Alike link) c.params d.params := by
  obtain ⟨e, left, right⟩ | ⟨c, d, left, right, related⟩ := agree_cases (agree_compile_query alike)
  · exact .inl ⟨e, left, right⟩
  · exact .inr ⟨c, d, left, right, related.sql, related.params⟩

-- One word is bound in a sub-query, in a table and in a condition, beside an array and a null.
def wordSearch (word rank : Value) (limit : Int64) : Query :=
  { Query.empty .select with
    items := [⟨some "hits", .value (.query { Query.empty .select with items := [⟨none, .value word⟩] })⟩]
    tables := [⟨"t", .fragment ⟨"words(?)", [word], none⟩, .main⟩]
    main := some "t"
    whereTree := some ⟨.and, [.leaf "word" [word], .leaf "rank" [.array [rank, .null]], .leaf "gone" [.null]]⟩
    limit := some limit }

theorem word_search_alike {word rank word' rank' : Value} (limit limit' : Int64) (words : word.Alike link word')
    (ranks : rank.Alike link rank') (limits : link (.int limit) (.int limit')) :
    (wordSearch word rank limit).Alike link (wordSearch word' rank' limit') := by
  have sub : Query.Alike link { Query.empty .select with items := [⟨none, .value word⟩] }
      { Query.empty .select with items := [⟨none, .value word'⟩] } :=
    .mk rfl (.cons (.mk none (.value words)) .nil) rfl .nil rfl (fun _ => .none) .none .nil .none .nil .none .none .nil
      rfl .none .nil .nil .nil .nil .nil
  have table : Fragment.Alike link ⟨"words(?)", [word], none⟩ ⟨"words(?)", [word'], none⟩ :=
    .mk rfl (.cons words .nil) rfl
  have ranked : Node.Alike link (.leaf "rank" [.array [rank, .null]]) (.leaf "rank" [.array [rank', .null]]) :=
    .leaf _ (.cons (.array (.cons ranks (.cons .null .nil))) .nil)
  refine .mk rfl (.cons (.mk _ (.value (.query sub))) .nil) rfl (.cons (.mk _ _ (.fragment table)) .nil) rfl
    (fun _ => .none) (.some (.mk _ ?_)) .nil .none .nil (.some limits) .none .nil rfl .none .nil .nil .nil .nil .nil
  exact .cons (.leaf _ (.cons words .nil)) (.cons ranked (.cons (.leaf _ (.cons .null .nil)) .nil))

theorem word_search_hides_words :
    let q := wordSearch (.text "ann") (.int 1) 5
    let r := wordSearch (.text "' OR ? = $1 --") (.uuid ⟨List.replicate 16 0⟩) 9
    (∃ e, q.compile = .error e ∧ r.compile = .error e) ∨
    ∃ c d, q.compile = .ok c ∧ r.compile = .ok d ∧ c.sql = d.sql ∧
      List.Forall₂ (Value.Alike fun _ _ => True) c.params d.params :=
  values_never_reach_text _ _ _
    (word_search_alike 5 9 (.scalar rfl rfl trivial) (.scalar rfl rfl trivial) trivial)

end QueryBuilder

import QueryBuilder.Draft
import QueryBuilder.Proofs.NumberingFaults
import QueryBuilder.Proofs.Splices

/-!
The builder never unbalances markers by itself.

Main statement: when each fragment that a query or a condition tree was given has a parameter for
each of its markers, compiling it neither misses a parameter nor leaves one over, whatever the texts
of its names, aliases, raw expressions and conditions hold.
-/

set_option autoImplicit false

namespace QueryBuilder

variable {ok : Fragment → Prop}

theorem params_of_every {f : Fragment} (every : f.Every ok) : ∀ v ∈ f.params, v.Every ok := by
  cases every with
  | mk _ params => exact params

theorem assembled_leading_clause {q : Query} (every : ∀ f ∈ q.leading, f.Every ok) :
    Assembled (Value.Every ok) q.leading q.leadingClause := by
  rw [Query.leadingClause]
  generalize q.leading = fs at every
  induction fs with
  | nil => exact .piece follows_empty.toSound
  | cons f rest ih =>
      have first : Assembled (Value.Every ok) [f] f.untagged := .splice (params_of_every (every f (by simp)))
      exact assembled_between (by decide) first (ih fun g member => every g (by simp [member]))

theorem trailing_clause {q : Query} (every : ∀ f ∈ q.trailing, f.Every ok) :
    Clause (Value.Every ok) q.trailing q.trailingClause := by
  rw [Query.trailingClause]
  generalize q.trailing = fs at every
  induction fs with
  | nil => exact clause_of_follows follows_empty
  | cons f rest ih =>
      have first : Assembled (Value.Every ok) [f] f.untagged := .splice (params_of_every (every f (by simp)))
      exact clause_append (clause_keyword (by decide) first) (ih fun g member => every g (by simp [member]))

theorem follows_set_operations_clause {q : Query} (every : ∀ s ∈ q.setOperations, s.operand.Every ok) :
    q.setOperationsClause.Follows (Value.Every ok) := by
  apply follows_concat
  intro f member
  obtain ⟨s, inside, rfl⟩ := List.mem_map.mp member
  have operator : (Fragment.literal " " ++ Fragment.literal s.operator.keyword).Follows (Value.Every ok) :=
    follows_append (follows_literal " ") (follows_literal _)
  have opened := follows_between (by decide : Keyword " (") operator (sound_hole (every s inside))
  exact follows_append opened (follows_literal ")")

theorem follows_limit_clause (q : Query) : q.limitClause.Follows (Value.Every ok) := by
  rw [Query.limitClause]
  cases q.limit with
  | none => exact follows_empty
  | some n => exact follows_keyword (by decide) (sound_hole (.atom rfl))

theorem follows_offset_clause (q : Query) : q.offsetClause.Follows (Value.Every ok) := by
  rw [Query.offsetClause]
  cases q.offset with
  | none => exact follows_empty
  | some n => exact follows_keyword (by decide) (sound_hole (.atom rfl))

theorem balances_with_main {q : Query} {good : Fragment → Prop} {statement : Table → Except Error Fragment}
    (every : ∀ t ∈ q.tables, t.source.Every ok)
    (each : ∀ t : Table, t.source.Every ok → Balances good (statement t)) :
    Balances good (q.withMain statement) := by
  rw [Query.withMain]
  cases found : q.mainTable? with
  | none => exact .error rfl
  | some t => exact each t (every t (Query.mem_tables_of_main found))

theorem balances_on_clause {q : Query} (kind : JoinKind) (aliasName : String)
    (trees : ∀ aliasName c, q.joinTree? aliasName = some c → c.Every ok) :
    Balances (Fragment.Follows (Value.Every ok)) (q.onClause kind aliasName) := by
  by_cases cross : kind = .cross
  · simpa only [Query.onClause, if_pos cross] using .ok follows_empty
  · unfold Query.onClause
    rw [if_neg cross]
    cases found : q.joinTree? aliasName with
    | none => exact .error rfl
    | some c =>
        by_cases blank : c.isBlank
        · simpa only [if_pos blank] using .error rfl
        · simp only [if_neg blank]
          apply balances_condition_clause (by decide)
          intro d same
          cases same
          exact trees aliasName c found

theorem balances_join_clause {q : Query} {t : Table} (every : t.source.Every ok)
    (trees : ∀ aliasName c, q.joinTree? aliasName = some c → c.Every ok) :
    Balances (Fragment.Follows (Value.Every ok)) (q.joinClause t) := by
  have table := sound_table_fragment every
  obtain ⟨aliasName, source, role⟩ := t
  cases role with
  | main => exact .ok follows_empty
  | listed => exact .ok follows_empty
  | joined kind =>
      have opening : (Fragment.literal " " ++ Fragment.literal kind.keyword).Follows (Value.Every ok) :=
        follows_append (follows_literal " ") (follows_literal _)
      apply yields_map (balances_on_clause kind aliasName trees)
      intro on follows
      exact follows_append (follows_between (by decide) opening table) follows

theorem balances_joins_clause {q : Query} (tables : ∀ t ∈ q.tables, t.source.Every ok)
    (trees : ∀ aliasName c, q.joinTree? aliasName = some c → c.Every ok) :
    Balances (Fragment.Follows (Value.Every ok)) q.joinsClause := by
  apply yields_clauses
  intro r member
  obtain ⟨t, inside, rfl⟩ := List.mem_map.mp member
  exact balances_join_clause (tables t inside) trees

theorem balances_from_clause {q : Query} (tables : ∀ t ∈ q.tables, t.source.Every ok)
    (trees : ∀ aliasName c, q.joinTree? aliasName = some c → c.Every ok) :
    Balances (Fragment.Follows (Value.Every ok)) q.fromClause := by
  have listed : (Fragment.concat (q.listedTables.map fun l => .literal ", " ++ l.fragment)).Follows (Value.Every ok) := by
    apply follows_concat
    intro f member
    obtain ⟨l, inside, rfl⟩ := List.mem_map.mp member
    exact follows_keyword (by decide) (sound_table_fragment (tables l (Query.mem_tables_of_listed inside)))
  by_cases none : q.tables.isEmpty
  · simpa only [Query.fromClause, if_pos none] using .ok follows_empty
  · rw [Query.fromClause, if_neg none]
    apply balances_with_main tables
    intro t table
    have main : (Fragment.literal " FROM " ++ t.fragment).Follows (Value.Every ok) :=
      follows_keyword (by decide) (sound_table_fragment table)
    apply yields_clauses
    simp only [List.forall_mem_cons, List.not_mem_nil]
    exact ⟨.ok (follows_append main listed), balances_joins_clause tables trees, nofun⟩

theorem balances_returning_clause {q : Query} (every : ∀ item ∈ q.returning, item.expr.Every ok) :
    Balances (Fragment.Follows (Value.Every ok)) q.returningClause := by
  by_cases none : q.returning.isEmpty
  · simpa only [Query.returningClause, if_pos none] using .ok follows_empty
  · rw [Query.returningClause, if_neg none]
    apply yields_map (balances_items_fragment every)
    intro f sound
    exact follows_keyword (by decide) sound

theorem assembled_select_statement {q : Query} (every : q.Every ok) :
    Balances (Assembled (Value.Every ok) (q.leading ++ q.trailing)) q.selectStatement := by
  cases every with
  | mk items tables trees whereTree groupBy havingTree orderBy operations source returning data rows leading trailing =>
      rw [Query.selectStatement]
      by_cases none : q.items.isEmpty
      · rw [if_pos none]
        exact .error rfl
      · rw [if_neg none]
        have keyword : Keyword (if q.distinct then "SELECT DISTINCT " else "SELECT ") := by
          cases q.distinct <;> decide
        have tail := yields_clause_list (
          .cons (yields_clause (balances_from_clause tables trees)) <|
          .cons (yields_clause (balances_condition_clause (by decide : Keyword " WHERE ") whereTree)) <|
          .cons (.ok (clause_of_follows (follows_exprs_clause (by decide : Keyword " GROUP BY ") groupBy))) <|
          .cons (yields_clause (balances_condition_clause (by decide : Keyword " HAVING ") havingTree)) <|
          .cons (.ok (clause_of_follows (follows_exprs_clause (by decide : Keyword " ORDER BY ") orderBy))) <|
          .cons (.ok (clause_of_follows (follows_limit_clause q))) <|
          .cons (.ok (clause_of_follows (follows_offset_clause q))) <|
          .cons (.ok (clause_of_follows (follows_set_operations_clause operations))) <|
          .cons (.ok (trailing_clause trailing)) .nil)
        have body := yields_clause_keyword keyword (yields_assembled_before (yields_piece (balances_items_fragment items)) tail)
        simpa using yields_assembled_before (.ok (assembled_leading_clause leading)) body

theorem item_column_well_formed {item : SelectItem} {i : Ident} (column : item.column? = some i) : i.WellFormed := by
  obtain ⟨aliasName, expr⟩ := item
  cases aliasName with
  | some name =>
      change (Ident.quoted name).toOption = some i at column
      cases quoted : Ident.quoted name with
      | error e =>
          rw [quoted] at column
          cases column
      | ok j =>
          rw [quoted] at column
          cases column
          exact quoted_well_formed quoted
  | none =>
      cases expr with
      | value v => cases column
      | raw text =>
          simp only [SelectItem.column?, Expr.column?] at column
          cases parsed : Ident.parse text with
          | error e =>
              rw [parsed] at column
              cases column
          | ok j =>
              rw [parsed] at column
              obtain ⟨part, last, rfl⟩ := Option.map_eq_some_iff.mp column
              have formed := (parse_well_formed parsed).2 part (List.mem_of_getLast? last)
              exact ⟨by simp, by simpa using formed⟩

theorem item_columns_well_formed {items : List SelectItem} {columns : List Ident}
    (named : items.mapM SelectItem.column? = some columns) : ∀ i ∈ columns, i.WellFormed := by
  induction items generalizing columns with
  | nil =>
      cases named
      simp
  | cons item rest ih =>
      rw [List.mapM_cons] at named
      obtain ⟨first, column, others⟩ := Option.bind_eq_some_iff.mp named
      obtain ⟨tail, later, same⟩ := Option.bind_eq_some_iff.mp others
      cases same
      intro i member
      rcases List.mem_cons.mp member with rfl | inside
      · exact item_column_well_formed column
      · exact ih later i inside

theorem infer_columns_well_formed (items : List SelectItem) : ∀ i ∈ inferColumns items, i.WellFormed := by
  rw [inferColumns]
  cases named : items.mapM SelectItem.column? with
  | none => simp
  | some columns => exact item_columns_well_formed named

theorem balances_source_columns (q source : Query) :
    Balances (fun columns => ∀ i ∈ columns, Ident.WellFormed i) (q.sourceColumns source) := by
  by_cases none : q.columns.isEmpty
  · simpa only [Query.sourceColumns, if_pos none] using .ok (infer_columns_well_formed source.items)
  · simpa only [Query.sourceColumns, if_neg none] using balances_parse_columns q.columns

theorem inserted_source_clause {q source : Query} (found : q.source = some source) (table : Table)
    {text : Except Error Fragment} (assembled : Balances (Assembled (Value.Every ok) source.spliced) text) :
    Balances (Clause (Value.Every ok) source.spliced) (q.insertedClause table (some text)) := by
  have columns : Balances (Fragment.Follows (Value.Every ok)) ((q.sourceColumns source).map columnList) :=
    yields_map (balances_source_columns q source) fun _ formed => follows_column_list formed
  have untagged : Balances (Assembled (Value.Every ok) source.spliced) (text.map .untagged) :=
    yields_map assembled fun _ => assembled_untagged
  have statement := yields_clause_keyword (by decide : Keyword " ") (yields_assembled_before untagged (yields_clause_list .nil))
  rw [inserted_clause_source found, clauses_cons]
  refine yields_bind (yields_clause columns) fun f _ names => yields_map statement fun g rest => ?_
  simpa using clause_append names rest

theorem balances_inserted_rows {q : Query} (absent : q.source = none) (table : Table)
    (data : ∀ c ∈ q.data, c.value.Every ok) (rows : ∀ row ∈ q.rows, ∀ c ∈ row, c.value.Every ok) :
    Balances (Fragment.Follows (Value.Every ok)) (q.insertedClause table none) := by
  have tuples : (Fragment.joinWith ", " (q.rowsToInsert.map (DataRow.tuple q.insertedNames))).Sound (Value.Every ok) := by
    apply sound_join_with (by decide)
    intro f member
    obtain ⟨row, inside, rfl⟩ := List.mem_map.mp member
    have cells : ∀ c ∈ row, c.value.Every ok := by
      rcases List.mem_cons.mp (List.mem_filter.mp inside).1 with rfl | listed
      · exact data
      · exact rows row listed
    exact (follows_tuple _ cells).toSound
  have columns : Balances (Fragment.Follows (Value.Every ok)) ((parseColumns q.insertedNames).map columnList) :=
    yields_map (balances_parse_columns q.insertedNames) fun _ formed => follows_column_list formed
  rw [inserted_clause_rows absent]
  by_cases none : q.rowsToInsert.isEmpty
  · simpa only [if_pos none] using .error rfl
  · rw [if_neg none]
    apply yields_clauses
    simp only [List.forall_mem_cons, List.not_mem_nil]
    exact ⟨columns, .ok (follows_keyword (by decide) tuples), nofun⟩

theorem assembled_insert_statement {q : Query} (every : q.Every ok) (insert : q.kind = .insert)
    (nested : ∀ source, q.source = some source → source.Every ok →
      Balances (Assembled (Value.Every ok) source.spliced) source.toFragment) :
    Balances (Assembled (Value.Every ok) q.spliced) (q.insertStatement (q.source.map Query.toFragment)) := by
  cases every with
  | mk items tables trees whereTree groupBy havingTree orderBy operations source returning data rows leading trailing =>
      refine balances_with_main tables fun t table => ?_
      have opening : Assembled (Value.Every ok) (q.leading ++ []) (q.leadingClause ++ .literal "INSERT INTO " ++ t.target) :=
        assembled_between (by decide) (assembled_leading_clause leading) (.piece (sound_table_target table))
      have returns : Balances (Clause (Value.Every ok) []) q.returningClause :=
        yields_clause (balances_returning_clause returning)
      have heads : q.heading = q.leading := by
        rw [Query.heading, insert]
        rfl
      cases found : q.source with
      | none =>
          have inserted := yields_clause (balances_inserted_rows found t data rows)
          have rest := yields_clause_list (.cons inserted <| .cons (.ok (trailing_clause trailing)) <| .cons returns .nil)
          rw [Query.spliced_own fun _ => found, heads]
          simpa using yields_assembled_before (.ok opening) rest
      | some sub =>
          have inserted := inserted_source_clause found t (nested sub found (source sub found))
          have rest := yields_clause_list (.cons inserted <| .cons (.ok (trailing_clause trailing)) <| .cons returns .nil)
          rw [Query.spliced_insert insert found]
          simpa using yields_assembled_before (.ok opening) rest

theorem balances_assignments {row : DataRow} (every : ∀ c ∈ row, c.value.Every ok) :
    Balances (fun fs => ∀ f ∈ fs, f.Sound (Value.Every ok)) (Query.assignments row) := by
  induction row with
  | nil => exact .ok (by simp)
  | cons c rest ih =>
      rw [assignments_cons]
      refine yields_cons ?_ (ih fun d member => every d (by simp [member]))
      refine yields_map (balances_parse c.column) fun i formed => ?_
      exact sound_between (by decide) (follows_ident formed).toSound (sound_value_fragment (every c (by simp)))

theorem balances_update_from_clause {q : Query} (tables : ∀ t ∈ q.tables, t.source.Every ok)
    (table : Table) : Balances (Fragment.Follows (Value.Every ok)) (q.updateFromClause table) := by
  have list : (Fragment.joinWith ", " (q.listedTables.map Table.fragment)).Sound (Value.Every ok) := by
    apply sound_join_with (by decide)
    intro f member
    obtain ⟨t, inside, rfl⟩ := List.mem_map.mp member
    exact sound_table_fragment (tables t (Query.mem_tables_of_listed inside))
  by_cases none : q.listedTables.isEmpty
  · by_cases joins : q.hasJoins
    · simpa only [Query.updateFromClause, if_pos none, if_pos joins] using .error rfl
    · simpa only [Query.updateFromClause, if_pos none, if_neg joins] using .ok follows_empty
  · simpa only [Query.updateFromClause, if_neg none] using .ok (follows_keyword (by decide) list)

theorem assembled_update_statement {q : Query} (every : q.Every ok) :
    Balances (Assembled (Value.Every ok) (q.leading ++ q.trailing)) q.updateStatement := by
  cases every with
  | mk items tables trees whereTree groupBy havingTree orderBy operations source returning data rows leading trailing =>
      refine balances_with_main tables fun t table => ?_
      by_cases none : q.data.isEmpty
      · rw [if_pos none]
        exact .error rfl
      · rw [if_neg none]
        have opening : Assembled (Value.Every ok) (q.leading ++ []) (q.leadingClause ++ .literal "UPDATE " ++ t.fragment) :=
          assembled_between (by decide) (assembled_leading_clause leading) (.piece (sound_table_fragment table))
        have cells : Balances (Fragment.Sound (Value.Every ok)) ((Query.assignments q.data).map (.joinWith ", ")) :=
          yields_map (balances_assignments data) fun _ sound => sound_join_with (by decide) sound
        have tail := yields_clause_list (
          .cons (yields_clause (balances_update_from_clause tables t)) <|
          .cons (yields_clause (balances_joins_clause tables trees)) <|
          .cons (yields_clause (balances_condition_clause (by decide : Keyword " WHERE ") whereTree)) <|
          .cons (.ok (trailing_clause trailing)) <|
          .cons (yields_clause (balances_returning_clause returning)) .nil)
        simpa using yields_assembled_between (by decide) opening (yields_assembled_before (yields_piece cells) tail)

theorem assembled_delete_statement {q : Query} (every : q.Every ok) :
    Balances (Assembled (Value.Every ok) (q.leading ++ q.trailing)) q.deleteStatement := by
  cases every with
  | mk items tables trees whereTree groupBy havingTree orderBy operations source returning data rows leading trailing =>
      refine balances_with_main tables fun t table => ?_
      have opening : Assembled (Value.Every ok) (q.leading ++ []) (q.leadingClause ++ .literal "DELETE FROM " ++ t.fragment) :=
        assembled_between (by decide) (assembled_leading_clause leading) (.piece (sound_table_fragment table))
      have tail := yields_clause_list (
        .cons (yields_clause (balances_condition_clause (by decide : Keyword " WHERE ") whereTree)) <|
        .cons (.ok (trailing_clause trailing)) <|
        .cons (yields_clause (balances_returning_clause returning)) .nil)
      simpa using yields_assembled_before (.ok opening) tail

theorem assembled_truncate_statement {q : Query} (every : q.Every ok) :
    Balances (Assembled (Value.Every ok) q.trailing) q.truncateStatement := by
  cases every with
  | mk items tables trees whereTree groupBy havingTree orderBy operations source returning data rows leading trailing =>
      refine balances_with_main tables fun t table => .ok ?_
      have opening : (Fragment.literal "TRUNCATE " ++ t.target).Follows (Value.Every ok) :=
        follows_keyword (by decide) (sound_table_target table)
      exact assembled_before (.piece opening.toSound) (trailing_clause trailing)

-- By recursion on the source of an INSERT, whose statement is a clause of this one.
theorem assembled_to_fragment (q : Query) (every : q.Every ok) :
    Balances (Assembled (Value.Every ok) q.spliced) q.toFragment := by
  rw [Query.toFragment_eq, Query.statement]
  cases kind : q.kind with
  | insert =>
      refine assembled_insert_statement every kind fun source found inner => ?_
      exact assembled_to_fragment source inner
  | select =>
      rw [Query.spliced_own (by simp [kind]), Query.heading, kind]
      exact assembled_select_statement every
  | update =>
      rw [Query.spliced_own (by simp [kind]), Query.heading, kind]
      exact assembled_update_statement every
  | delete =>
      rw [Query.spliced_own (by simp [kind]), Query.heading, kind]
      exact assembled_delete_statement every
  | truncate =>
      rw [Query.spliced_own (by simp [kind]), Query.heading, kind]
      exact assembled_truncate_statement every
termination_by sizeOf q
decreasing_by
  have fields := q.sizeOf_fields
  simp only [found, Option.some.sizeOf_spec] at fields
  omega

theorem ok_of_every {f : Fragment} (every : f.Every ok) : ok f := by
  cases every with
  | mk holds _ => exact holds

theorem spliced_every (q : Query) (every : q.Every ok) : ∀ f ∈ q.spliced, ok f := by
  intro f member
  cases every with
  | mk items tables trees whereTree groupBy havingTree orderBy operations source returning data rows leading trailing =>
      rcases Query.mem_spliced member with before | behind | ⟨sub, found, inside⟩
      · exact ok_of_every (leading f before)
      · exact ok_of_every (trailing f behind)
      · exact spliced_every sub (source sub found) f inside
termination_by sizeOf q
decreasing_by
  have fields := q.sizeOf_fields
  simp only [found, Option.some.sizeOf_spec] at fields
  omega

abbrev Tidy : Value → Prop := Value.Every Fragment.Balanced

theorem balances_to_fragment (q : Query) (every : q.Every Fragment.Balanced) :
    Balances (Fragment.Sound Tidy) q.toFragment :=
  yields_mono (assembled_to_fragment q every) fun _ assembled => sound_of_assembled assembled (spliced_every q every)

-- A tidy value has no text that is unbalanced, so that only an empty array or a statement fails in it.
theorem tidy_fails {v : Value} {e : Error} (fails : v.Fails e) (tidy : Tidy v) : e.isUnbalanced = false := by
  induction fails with
  | empty => rfl
  | item member _ ih =>
      cases tidy with
      | atom atom => cases atom
      | array items => exact ih (items _ member)
  | uneven unbalanced _ =>
      cases tidy with
      | atom atom => cases atom
      | fragment inner => exact absurd (ok_of_every inner) unbalanced
  | param member _ ih =>
      cases tidy with
      | atom atom => cases atom
      | fragment inner => exact ih (params_of_every inner _ member)
  | @unwritten q e failed =>
      cases tidy with
      | atom atom => cases atom
      | query inner => exact fault_of_error (balances_to_fragment q inner) failed
  | @written q f e made _ ih =>
      cases tidy with
      | atom atom => cases atom
      | query inner =>
          have sound := good_of_ok (balances_to_fragment q inner) made
          exact ih (.fragment (.mk sound.balanced sound.params))

theorem balances_compile_fragment {f : Fragment} (sound : f.Sound Tidy) : Balances (fun _ => True) f.compile :=
  yields_weaken (compile_fragment_fails f) fun _ fails => tidy_fails fails (.fragment (.mk sound.balanced sound.params))

theorem balances_compile_query {q : Query} (every : q.Every Fragment.Balanced) :
    Balances (fun _ => True) q.compile :=
  yields_weaken (compile_query_fails q) fun _ fails => tidy_fails fails (.query every)

theorem balances_compile_condition {c : Condition} (every : c.Every Fragment.Balanced) :
    Balances (fun _ => True) c.compile := by
  rw [condition_compile_bind]
  exact yields_bind (balances_emit false c every) fun _ _ sound => balances_compile_fragment sound

-- A draft fails only when it compiles its query anew.
theorem draft_compile_error {d after : Draft} {e : Error} (failed : d.compile = .error e after) :
    d.query.compile = .error e := by
  unfold Draft.compile at failed
  cases memo : d.memo with
  | some c =>
      rw [memo] at failed
      cases failed
  | none =>
      rw [memo] at failed
      cases compiled : d.query.compile with
      | ok c =>
          rw [compiled] at failed
          cases failed
      | error fault =>
          rw [compiled] at failed
          cases failed
          rfl

theorem builder_keeps_balance :
    (∀ d : Draft, d.query.Every Fragment.Balanced →
      (∀ f, d.query.toFragment = .ok f → f.Balanced) ∧
      ∀ e after, d.compile = .error e after → e.isUnbalanced = false) ∧
    ∀ c : Condition, c.Every Fragment.Balanced →
      (∀ f, c.toFragment = .ok f → f.Balanced) ∧ ∀ e, c.compile = .error e → e.isUnbalanced = false := by
  constructor
  · intro d every
    constructor
    · intro f written
      have balances := balances_to_fragment d.query every
      rw [written] at balances
      exact (yields_good balances).balanced
    · intro e after failed
      have balances := balances_compile_query every
      rw [draft_compile_error failed] at balances
      exact yields_fault balances
  · intro c every
    constructor
    · intro f written
      have balances := balances_emit false c every
      rw [Condition.toFragment] at written
      rw [written] at balances
      exact (yields_good balances).balanced
    · intro e failed
      have balances := balances_compile_condition every
      rw [failed] at balances
      exact yields_fault balances

-- Each text of it ends in a backslash or holds a question mark, escaped or not.
def spikedSearch : Query :=
  { Query.empty .select with
    items := [⟨some "\\?", .raw "a ? b\\"⟩, ⟨none, .value (.fragment ⟨"? + \\?\\", [.int 1], none⟩)⟩]
    tables := [⟨"t\\", .fragment ⟨"?\\", [.array [.int 2, .null]], none⟩, .main⟩, ⟨"?", .name "u ?\\", .listed⟩]
    main := some "t\\"
    whereTree := some ⟨.and, [.leaf "\\? = x\\" [.text "?"], .leaf "y = ? OR z\\" [.bool true]]⟩
    leading := [⟨"? AS w\\", [.int 3], none⟩]
    trailing := [⟨"?", [.int 4], none⟩] }

theorem spiked_search_every : spikedSearch.Every Fragment.Balanced := by
  have fits {text : String} {v : Value} (one : Marker.count text = 1) (tidy : Tidy v) :
      Fragment.Every Fragment.Balanced ⟨text, [v], none⟩ :=
    .mk one fun w member => List.mem_singleton.mp member ▸ tidy
  have array : Tidy (.array [.int 2, .null]) := by
    refine .array fun v member => .atom ?_
    rcases List.mem_cons.mp member with rfl | last
    · rfl
    · rw [List.mem_singleton.mp last]
      rfl
  refine .mk ?_ ?_ nofun ?_ nofun nofun nofun nofun nofun nofun nofun nofun ?_ ?_ <;>
    simp only [spikedSearch, List.forall_mem_cons, List.not_mem_nil]
  · exact ⟨.raw _, .value (.fragment (fits (by decide) (.atom rfl))), nofun⟩
  · exact ⟨.fragment (fits (by decide) array), .name _, nofun⟩
  · intro c tree
    cases tree
    refine .mk .and ?_
    simp only [List.forall_mem_cons, List.not_mem_nil]
    refine ⟨.leaf _ fun v member => ?_, .leaf _ fun v member => ?_, nofun⟩
    all_goals
      rw [List.mem_singleton.mp member]
      exact .atom rfl
  · exact ⟨fits (by decide) (.atom rfl), nofun⟩
  · exact ⟨fits (by decide) (.atom rfl), nofun⟩

theorem spiked_search_keeps_balance :
    spikedSearch.Every Fragment.Balanced ∧
    (∀ f, spikedSearch.toFragment = .ok f → f.Balanced) ∧
    (∀ e after, (Draft.ofQuery spikedSearch).compile = .error e after → e.isUnbalanced = false) ∧
    (∀ c, spikedSearch.whereTree = some c → ∀ e, c.compile = .error e → e.isUnbalanced = false) := by
  have whole := builder_keeps_balance.1 (.ofQuery spikedSearch) spiked_search_every
  refine ⟨spiked_search_every, whole.1, whole.2, ?_⟩
  intro c tree
  cases spiked_search_every with
  | mk _ _ _ whereTree => exact (builder_keeps_balance.2 c (whereTree c tree)).2

example : (Condition.mk .and [.leaf "\\? = x\\" [.text "?"], .leaf "y = ? OR z\\" [.bool true]]).compile =
    .ok ⟨"(? = x\\ = $1) AND (y = $2 OR z\\)", [.text "?", .bool true]⟩ := by
  cbv

end QueryBuilder

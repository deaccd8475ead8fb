import Mathlib
import QueryBuilder.Proofs.Balance
import QueryBuilder.Proofs.DataRows
import QueryBuilder.Proofs.IdentifierText
import QueryBuilder.Proofs.Inlining
import QueryBuilder.Proofs.LiteralText

/-!
The rows of an INSERT that lists no columns of its own.

Main statement: the columns of all rows are listed once each, as they are first seen, and every row
that is not empty is a tuple with one entry for each of them: the value of the row for the column, or
`DEFAULT`. In the compiled form each entry is what its own value expands to, as long as the fragments
before the statement have as many markers as parameters: if they have not, the values move on to other
markers.
-/

set_option autoImplicit false

namespace QueryBuilder

-- What a row has to say of a column.
def DataRow.entry (row : DataRow) (name : String) : Fragment :=
  match row.get? name with
  | some v => valueFragment v
  | none => .literal "DEFAULT"

-- The columns between parentheses, and a tuple for each row.
def rowsText (names : List String) (rows : List DataRow) : Fragment :=
  .literal ("(" ++ ", ".intercalate names ++ ")") ++
    (.literal " VALUES" ++ .joinWith ", " (rows.map fun row => parenthesized (.joinWith ", " (names.map row.entry))))

def Fragment.Expands (f : Fragment) (pieces : List Piece) : Prop :=
  expandText f.text f.params = some pieces

-- The pieces of the rows: in each tuple, one behind the other, what the entries of its row expand to.
def Tabulated (names : List String) (rows : List DataRow) (pieces : List Piece) : Prop :=
  ∃ entries : List (List (List Piece)),
    List.Forall₂ (fun row es => List.Forall₂ (fun name e => (row.entry name).Expands e) names es) rows entries ∧
    pieces = literalPieces ("(" ++ ", ".intercalate names ++ ")") ++ (literalPieces " VALUES" ++
      separated (entries.map fun es => literalPieces "(" ++ separated es ++ literalPieces ")"))

theorem literal_append (a b : String) : Fragment.literal (a ++ b) = .literal a ++ .literal b := by
  have text : Marker.escape (a ++ b) = Marker.escape a ++ Marker.escape b := by
    simp [Marker.escape, String.toList_append, String.ofList_append]
  change Fragment.ofText (Marker.escape (a ++ b)) = Fragment.ofText (Marker.escape a ++ Marker.escape b)
  rw [text]

-- A name that reads as an identifier is written as it stands.
theorem ident_literal {name : String} {i : Ident} (parsed : Ident.parse name = .ok i) :
    Fragment.ident i = .literal name := by
  rw [Fragment.ident, marker_form_escaped (parse_well_formed parsed), written_of_parse parsed]
  rfl

theorem join_literals (sep : String) (texts : List String) :
    Fragment.joinWith sep (texts.map .literal) = .literal (sep.intercalate texts) := by
  induction texts with
  | nil => rfl
  | cons text rest ih =>
      cases rest with
      | nil => rw [String.intercalate_singleton]; rfl
      | cons next others =>
          rw [String.intercalate_cons_cons, literal_append, literal_append, ← ih]
          rfl

theorem idents_literal {names : List String} {columns : List Ident} (parsed : parseColumns names = .ok columns) :
    columns.map Fragment.ident = names.map .literal := by
  induction names generalizing columns with
  | nil =>
      cases parsed
      rfl
  | cons name names ih =>
      rw [parse_columns_cons] at parsed
      cases first : Ident.parse name with
      | error e =>
          rw [first] at parsed
          cases parsed
      | ok i =>
          rw [first] at parsed
          obtain ⟨others, later, rfl⟩ := map_ok_inv parsed
          rw [List.map_cons, List.map_cons, ident_literal first, ih later]

theorem column_list_literal {names : List String} {columns : List Ident} (some : names ≠ [])
    (parsed : parseColumns names = .ok columns) :
    columnList columns = .literal ("(" ++ ", ".intercalate names ++ ")") := by
  have written := idents_literal parsed
  have listed : ¬ columns.isEmpty := by
    intro none
    rw [List.isEmpty_iff.mp none] at written
    exact some (List.map_eq_nil_iff.mp written.symm)
  rw [columnList, if_neg listed, written, join_literals, parenthesized, literal_append, literal_append]

-- Columns are there as soon as a row is.
theorem inserted_rows_text {q : Query} (absent : q.source = none) (inferred : q.columns = []) {t : Table} {f : Fragment}
    (made : q.insertedClause t (q.source.map Query.toFragment) = .ok f) :
    f = rowsText (collectColumns q.rowsToInsert) q.rowsToInsert := by
  have names : q.insertedNames = collectColumns q.rowsToInsert := if_pos (by rw [inferred]; rfl)
  rw [inserted_clause_rows absent] at made
  by_cases none : q.rowsToInsert.isEmpty
  · rw [if_pos none] at made
    cases made
  · rw [if_neg none, names] at made
    obtain ⟨_, _, columns, values, rfl⟩ := clauses_cons_ok made
    obtain ⟨_, _, tuples, last, rfl⟩ := clauses_cons_ok values
    cases tuples
    cases last
    obtain ⟨listed, parsed, rfl⟩ := map_ok_inv columns
    have some : collectColumns q.rowsToInsert ≠ [] := by
      obtain ⟨row, rest, rows⟩ := List.exists_cons_of_ne_nil fun nil => none (List.isEmpty_iff.mpr nil)
      have inside : row ∈ q.rowsToInsert := rows ▸ List.mem_cons_self
      obtain ⟨c, others, cells⟩ := List.exists_cons_of_ne_nil (l := row) fun nil => by
        simpa [nil] using (List.mem_filter.mp inside).2
      rw [collect_columns_distinct]
      refine List.ne_nil_of_mem (List.mem_eraseDups.mpr (List.mem_map_of_mem (a := c) ?_))
      exact List.mem_flatten.mpr ⟨row, inside, cells ▸ List.mem_cons_self⟩
    rw [column_list_literal some parsed, append_empty]
    rfl

section Expanding

theorem value_balanced (v : Value) : (valueFragment v).Balanced :=
  (sound_value_fragment (value_every_of_all (fun _ => trivial) v : v.Every fun _ => True)).balanced

theorem entry_balanced (row : DataRow) (name : String) : (row.entry name).Balanced := by
  rw [DataRow.entry]
  cases row.get? name with
  | none => exact literal_balanced "DEFAULT"
  | some v => exact value_balanced v

theorem sound_of_balanced {f : Fragment} (balanced : f.Balanced) : f.Sound fun _ => True :=
  ⟨balanced, fun _ _ => trivial⟩

theorem joined_balanced {fs : List Fragment} (each : ∀ f ∈ fs, f.Balanced) : (Fragment.joinWith ", " fs).Balanced :=
  (sound_join_with (by decide) fun f member => sound_of_balanced (each f member)).balanced

theorem tuple_balanced (names : List String) (row : DataRow) :
    (Fragment.joinWith ", " (names.map row.entry)).Balanced := by
  refine joined_balanced fun f member => ?_
  obtain ⟨name, -, rfl⟩ := List.mem_map.mp member
  exact entry_balanced row name

theorem parenthesized_balanced {f : Fragment} (balanced : f.Balanced) : (parenthesized f).Balanced :=
  (follows_parenthesized (sound_of_balanced balanced)).balanced

theorem append_expands {f g : Fragment} (balanced : f.Balanced) (apart : ¬ Meets f.text.toList g.text.toList)
    {pieces : List Piece} (expands : (f ++ g).Expands pieces) :
    ∃ ps qs, f.Expands ps ∧ g.Expands qs ∧ pieces = ps ++ qs := by
  rw [Fragment.Expands, expand_append balanced apart] at expands
  obtain ⟨ps, first, others⟩ := Option.bind_eq_some_iff.mp expands
  obtain ⟨qs, second, rfl⟩ := Option.map_eq_some_iff.mp others
  exact ⟨ps, qs, first, second, rfl⟩

theorem keyword_expands {text : String} (keyword : Keyword text) {g : Fragment} {pieces : List Piece}
    (expands : (Fragment.literal text ++ g).Expands pieces) :
    ∃ qs, g.Expands qs ∧ pieces = literalPieces text ++ qs := by
  obtain ⟨ps, qs, first, second, rfl⟩ := append_expands (literal_balanced text) (keyword_apart keyword _) expands
  cases first.symm.trans (literal_expands text)
  exact ⟨qs, second, rfl⟩

theorem joined_expands {fs : List Fragment} (each : ∀ f ∈ fs, f.Balanced) {pieces : List Piece}
    (expands : (Fragment.joinWith ", " fs).Expands pieces) :
    ∃ es, List.Forall₂ Fragment.Expands fs es ∧ pieces = separated es := by
  induction fs generalizing pieces with
  | nil =>
      cases expands.symm.trans (literal_expands "")
      exact ⟨[], .nil, rfl⟩
  | cons f rest ih =>
      cases rest with
      | nil => exact ⟨[pieces], .cons expands .nil, rfl⟩
      | cons g others =>
          have later : ∀ h ∈ g :: others, h.Balanced := fun h member => each h (List.mem_cons_of_mem f member)
          obtain ⟨-, both⟩ := expand_between (by decide : Keyword ", ") (each f (by simp)) (joined_balanced later)
          obtain ⟨ps, first, behind⟩ := Option.bind_eq_some_iff.mp (both.symm.trans expands)
          obtain ⟨qs, second, rfl⟩ := Option.map_eq_some_iff.mp behind
          obtain ⟨es, all, rfl⟩ := ih later second
          cases all with
          | cons head tail => exact ⟨ps :: _ :: _, .cons first (.cons head tail), rfl⟩

theorem parenthesized_expands {f : Fragment} (balanced : f.Balanced) {pieces : List Piece}
    (expands : (parenthesized f).Expands pieces) :
    ∃ inner, f.Expands inner ∧ pieces = literalPieces "(" ++ inner ++ literalPieces ")" := by
  rw [parenthesized, append_assoc] at expands
  obtain ⟨rest, behind, rfl⟩ := keyword_expands (by decide) expands
  have last : (Fragment.literal ")").Follows fun _ => True := follows_literal ")"
  obtain ⟨inner, _, inside, closed, rfl⟩ := append_expands balanced (fun meets => last.led meets.2) behind
  cases closed.symm.trans (literal_expands ")")
  exact ⟨inner, inside, (List.append_assoc _ _ _).symm⟩

theorem tuple_expands {names : List String} {row : DataRow} {pieces : List Piece}
    (expands : (parenthesized (.joinWith ", " (names.map row.entry))).Expands pieces) :
    ∃ es, List.Forall₂ (fun name e => (row.entry name).Expands e) names es ∧
      pieces = literalPieces "(" ++ separated es ++ literalPieces ")" := by
  obtain ⟨inner, joined, rfl⟩ := parenthesized_expands (tuple_balanced names row) expands
  have each : ∀ f ∈ names.map row.entry, f.Balanced :=
    List.forall_mem_map.mpr fun name _ => entry_balanced row name
  obtain ⟨es, all, rfl⟩ := joined_expands each joined
  exact ⟨es, List.forall₂_map_left_iff.mp all, rfl⟩

theorem tuples_expand {names : List String} {rows : List DataRow} {pieces : List (List Piece)}
    (expand :
      List.Forall₂ (fun row ps => (parenthesized (.joinWith ", " (names.map row.entry))).Expands ps) rows pieces) :
    ∃ entries : List (List (List Piece)),
      List.Forall₂ (fun row es => List.Forall₂ (fun name e => (row.entry name).Expands e) names es) rows entries ∧
      pieces = entries.map fun es => literalPieces "(" ++ separated es ++ literalPieces ")" := by
  induction expand with
  | nil => exact ⟨[], .nil, rfl⟩
  | cons head _ ih =>
      obtain ⟨es, first, rfl⟩ := tuple_expands head
      obtain ⟨entries, others, rfl⟩ := ih
      exact ⟨es :: entries, .cons first others, rfl⟩

theorem rows_balanced (names : List String) (rows : List DataRow) :
    ∀ f ∈ rows.map (fun row => parenthesized (.joinWith ", " (names.map row.entry))), f.Balanced :=
  List.forall_mem_map.mpr fun row _ => parenthesized_balanced (tuple_balanced names row)

theorem rows_text_follows (names : List String) (rows : List DataRow) : (rowsText names rows).Follows fun _ => True :=
  follows_append (follows_literal _)
    (follows_keyword (by decide) (sound_of_balanced (joined_balanced (rows_balanced names rows))))

theorem rows_text_tabulated {names : List String} {rows : List DataRow} {pieces : List Piece}
    (expands : (rowsText names rows).Expands pieces) : Tabulated names rows pieces := by
  have values := follows_keyword (by decide : Keyword " VALUES")
    (sound_of_balanced (joined_balanced (rows_balanced names rows)))
  obtain ⟨ps, qs, first, second, rfl⟩ :=
    append_expands (literal_balanced _) (fun meets => values.led meets.2) expands
  cases first.symm.trans (literal_expands _)
  obtain ⟨tuples, joined, rfl⟩ := keyword_expands (by decide) second
  obtain ⟨ts, all, rfl⟩ := joined_expands (rows_balanced names rows) joined
  obtain ⟨entries, each, rfl⟩ := tuples_expand (List.forall₂_map_left_iff.mp all)
  exact ⟨entries, each, rfl⟩

end Expanding

-- The statement is cut in front of the columns and behind the last row.
theorem insert_statement_parts {q : Query} (insert : q.kind = .insert) (absent : q.source = none)
    (inferred : q.columns = []) {f : Fragment} (made : q.toFragment = .ok f) :
    ∃ t returning, q.mainTable? = some t ∧ q.returningClause = .ok returning ∧
      f = q.leadingClause ++ .literal "INSERT INTO " ++ t.target ++
        (rowsText (collectColumns q.rowsToInsert) q.rowsToInsert ++ (q.trailingClause ++ returning)) := by
  rw [Query.toFragment_eq, Query.statement, insert] at made
  simp only [Query.insertStatement, Query.withMain] at made
  cases main : q.mainTable? with
  | none =>
      rw [main] at made
      cases made
  | some t =>
      rw [main] at made
      obtain ⟨_, _, head, others, rfl⟩ := clauses_cons_ok made
      obtain ⟨_, _, rows, behind, rfl⟩ := clauses_cons_ok others
      obtain ⟨_, _, trailing, last, rfl⟩ := clauses_cons_ok behind
      obtain ⟨returning, _, returns, none, rfl⟩ := clauses_cons_ok last
      cases head
      cases trailing
      cases none
      rw [inserted_rows_text absent inferred rows, append_empty]
      exact ⟨t, returning, rfl, returns, rfl⟩

theorem head_balanced {q : Query} {t : Table} (main : q.mainTable? = some t)
    (even : markers q.leading = supplied q.leading) :
    (q.leadingClause ++ .literal "INSERT INTO " ++ t.target).Balanced := by
  cases (query_every_of_all (fun _ => trivial) q : q.Every fun _ => True) with
  | mk _ tables _ _ _ _ _ _ _ _ _ _ leading _ =>
      have assembled := assembled_leading_clause leading
      have count := assembled_count assembled
      have before : q.leadingClause.Balanced := by
        rw [Fragment.Balanced]
        omega
      have target := sound_table_target (tables t (Query.mem_tables_of_main main))
      exact (sound_between (by decide) ⟨before, assembled_params assembled⟩ target).balanced

theorem tail_led {q : Query} {returning : Fragment} (returns : q.returningClause = .ok returning) :
    (q.trailingClause ++ returning).text.toList.head? ≠ some '?' := by
  cases (query_every_of_all (fun _ => trivial) q : q.Every fun _ => True) with
  | mk _ _ _ _ _ _ _ _ _ items _ _ _ trailing =>
      have sound := good_of_ok (balances_returning_clause items) returns
      exact led_append (trailing_clause trailing).led sound.led

theorem inserted_values_keep_columns (start : Start) (actions : List Action) (d : Draft)
    (reachable : d ∈ ((Session.begin start).run actions).drafts) (insert : d.query.kind = .insert)
    (absent : d.query.source = none) (inferred : d.query.columns = []) (c : Compiled)
    (answered : Run.answer Draft.compile d = .ok c) :
    let listed : List DataRow := d.query.data :: d.query.rows
    let rows := listed.filter fun row => !row.isEmpty
    let names := (listed.flatten.map Cell.column).eraseDups
    (names.Nodup ∧ ∀ row ∈ rows,
      (∀ cell ∈ row, cell.column ∈ names ∧ row.entry cell.column = valueFragment cell.value) ∧
      ∀ name, name ∉ row.map Cell.column → row.entry name = .literal "DEFAULT") ∧
    ∃ t returning, d.query.mainTable? = some t ∧ d.query.returningClause = .ok returning ∧
      let head := d.query.leadingClause ++ .literal "INSERT INTO " ++ t.target
      let tail := d.query.trailingClause ++ returning
      d.query.toFragment = .ok (head ++ (rowsText names rows ++ tail)) ∧
      (markers d.query.leading = supplied d.query.leading →
        ∃ pre table post, head.Expands pre ∧ Tabulated names rows table ∧ tail.Expands post ∧
          c = Compiled.empty.extend (pre ++ (table ++ post))) := by
  intro listed rows names
  have collected : collectColumns d.query.rowsToInsert = names := by
    rw [collect_columns_distinct, rows_to_insert_flatten]
  have apart : d.query.RowsApart := reachable_keeps rows_apart_kept reachable
  refine ⟨⟨collected ▸ collected_apart _, fun row member => ⟨fun cell inside => ⟨?_, ?_⟩, fun name missing => ?_⟩⟩, ?_⟩
  · have known : row ∈ listed := (List.mem_filter.mp member).1
    exact List.mem_eraseDups.mpr (List.mem_map_of_mem (List.mem_flatten.mpr ⟨row, known, inside⟩))
  · have alone : row.Apart := by
      rcases List.mem_cons.mp (List.mem_filter.mp member).1 with rfl | known
      · exact apart.data
      · exact apart.rows row known
    rw [DataRow.entry, row_get_of_mem alone inside]
  · rw [DataRow.entry, row_get_absent missing]
  · rw [fresh_compile_answer d (reachable_fresh reachable), query_compile_bind] at answered
    cases made : d.query.toFragment with
    | error e =>
        rw [made] at answered
        cases answered
    | ok f =>
        rw [made] at answered
        obtain ⟨t, returning, main, returns, rfl⟩ := insert_statement_parts insert absent inferred made
        rw [collected]
        refine ⟨t, returning, main, returns, rfl, fun even => ?_⟩
        obtain ⟨pieces, expanded, rfl⟩ := number_expands.mp answered
        rw [collected] at expanded
        have follows := rows_text_follows names rows
        have behind := led_append follows.led (tail_led returns)
        obtain ⟨pre, rest, first, others, rfl⟩ :=
          append_expands (head_balanced main even) (fun meets => behind meets.2) expanded
        obtain ⟨table, post, second, third, rfl⟩ :=
          append_expands follows.balanced (fun meets => tail_led returns meets.2) others
        exact ⟨pre, table, post, first, rows_text_tabulated second, third, rfl⟩

def boundTable : Fragment :=
  ⟨"WITH x AS (SELECT ?)", [.int 9], none⟩

-- The last row is empty, and the other two do not have the same columns.
def ragged : Draft :=
  .ofQuery { Query.ofTable .insert "t" with
    data := [⟨"a", .int 1⟩]
    rows := [[⟨"b", .bool true⟩, ⟨"a", .int 2⟩], []]
    leading := [boundTable] }

def raggedActions : List Action :=
  [.call 0 (.values [⟨"a", .int 1⟩]), .call 0 (.leading boundTable),
    .call 0 (.rows [[⟨"b", .bool true⟩, ⟨"a", .int 2⟩], []])]

def raggedForm : Compiled where
  sql := "WITH x AS (SELECT $1) INSERT INTO t(a, b) VALUES($2, DEFAULT), ($3, TRUE)"
  params := [.int 9, .int 1, .int 2]

theorem ragged_values_keep_columns :
    ragged ∈ ((Session.begin (.ofTable .insert "t")).run raggedActions).drafts ∧ ragged.query.kind = .insert ∧
    ragged.query.source = none ∧ ragged.query.columns = [] ∧ Run.answer Draft.compile ragged = .ok raggedForm ∧
    let rows : List DataRow := [[⟨"a", .int 1⟩], [⟨"b", .bool true⟩, ⟨"a", .int 2⟩]]
    (∀ row ∈ rows, ∀ cell ∈ row, row.entry cell.column = valueFragment cell.value) ∧
    ∃ pre table post, Tabulated ["a", "b"] rows table ∧
      raggedForm = Compiled.empty.extend (pre ++ (table ++ post)) := by
  have made : ((Session.begin (.ofTable .insert "t")).run raggedActions).drafts = [ragged] := by
    cbv
  have reachable : ragged ∈ ((Session.begin (.ofTable .insert "t")).run raggedActions).drafts := made ▸ .head _
  have answered : Run.answer Draft.compile ragged = .ok raggedForm := by
    cbv
  obtain ⟨⟨-, each⟩, t, returning, -, -, -, written⟩ :=
    inserted_values_keep_columns _ raggedActions ragged reachable rfl rfl rfl raggedForm answered
  obtain ⟨pre, table, post, -, tabulated, -, whole⟩ := written (by decide)
  exact ⟨reachable, rfl, rfl, rfl, answered, fun row member cell inside => ((each row member).1 cell inside).2,
    pre, table, post, tabulated, whole⟩

-- The marker before the statement takes the value of the first column, and that column the value of the second.
def shifted : Draft :=
  .ofQuery { Query.ofTable .insert "t" with
    data := [⟨"a", .int 1⟩, ⟨"b", .int 2⟩]
    leading := [.ofText "WITH x AS (SELECT ?)"]
    trailing := [⟨"RETURNING a", [.int 7], none⟩] }

def shiftedForm : Compiled where
  sql := "WITH x AS (SELECT $1) INSERT INTO t(a, b) VALUES($2, $3) RETURNING a"
  params := [.int 1, .int 2, .int 7]

def shiftedRow : List Piece :=
  literalPieces "(a, b)" ++ (literalPieces " VALUES" ++
    (literalPieces "(" ++ ([.scalar (.int 1)] ++ literalPieces ", " ++ [.scalar (.int 2)]) ++ literalPieces ")"))

theorem shifted_tabulated {table : List Piece} (tabulated : Tabulated ["a", "b"] [shifted.query.data] table) :
    table = shiftedRow := by
  obtain ⟨entries, each, rfl⟩ := tabulated
  obtain ⟨es, _, row, none, rfl⟩ := List.forall₂_cons_left_iff.mp each
  obtain ⟨p, _, first, others, rfl⟩ := List.forall₂_cons_left_iff.mp row
  obtain ⟨r, _, second, done, rfl⟩ := List.forall₂_cons_left_iff.mp others
  cases none
  cases done
  cases first.symm.trans ((hole_expands (.int 1)).trans (expand_atom rfl))
  cases second.symm.trans ((hole_expands (.int 2)).trans (expand_atom rfl))
  rfl

-- The values of the row cannot come first, for the text has other numbers there, and no later, for they are not there.
theorem shifted_apart (pre post : List Piece) :
    shiftedForm ≠ Compiled.empty.extend (pre ++ (shiftedRow ++ post)) := by
  intro whole
  have values : scalars shiftedRow = [.int 1, .int 2] := by
    cbv
  have params : [.int 1, .int 2, .int 7] = scalars pre ++ ([.int 1, .int 2] ++ scalars post) := by
    have taken := congrArg Compiled.params whole
    rwa [extend_append, extend_append, Compiled.extend, Compiled.extend, values, List.append_assoc] at taken
  cases early : scalars pre with
  | nil =>
      have written : render 1 shiftedRow = "(a, b) VALUES($1, $2)" := by
        decide
      have text : shiftedForm.sql = render 1 pre ++ ("(a, b) VALUES($1, $2)" ++ render 3 post) := by
        rw [congrArg Compiled.sql whole, Compiled.extend, render_append, render_append, ← written, values, early]
        exact String.empty_append
      have inside : "(a, b) VALUES($1, $2)".toList <:+: shiftedForm.sql.toList := by
        rw [text, String.toList_append, String.toList_append, ← List.append_assoc]
        exact List.infix_append _ _ _
      revert inside
      decide +kernel
  | cons v rest =>
      rw [early] at params
      cases rest with
      | nil => cases params
      | cons w others =>
          have lengths := congrArg List.length params
          simp only [List.length_append, List.length_cons, List.length_nil] at lengths
          omega

theorem shortage_moves_values :
    ¬ ∀ (start : Start) (actions : List Action) (d : Draft),
      d ∈ ((Session.begin start).run actions).drafts → d.query.kind = .insert → d.query.source = none →
      d.query.columns = [] → ∀ c : Compiled, Run.answer Draft.compile d = .ok c →
      let listed : List DataRow := d.query.data :: d.query.rows
      ∃ pre table post, Tabulated (listed.flatten.map Cell.column).eraseDups (listed.filter fun row => !row.isEmpty) table ∧
        c = Compiled.empty.extend (pre ++ (table ++ post)) := by
  intro keeps
  let actions := [Action.call 0 (.leading (.ofText "WITH x AS (SELECT ?)")),
    .call 0 (.values [⟨"a", .int 1⟩, ⟨"b", .int 2⟩]), .call 0 (.trailing ⟨"RETURNING a", [.int 7], none⟩)]
  have made : ((Session.begin (.ofTable .insert "t")).run actions).drafts = [shifted] := by
    cbv
  have reachable : shifted ∈ ((Session.begin (.ofTable .insert "t")).run actions).drafts := made ▸ .head _
  have answered : Run.answer Draft.compile shifted = .ok shiftedForm := by
    cbv
  obtain ⟨pre, table, post, tabulated, whole⟩ := keeps _ actions shifted reachable rfl rfl rfl shiftedForm answered
  exact shifted_apart pre post (shifted_tabulated tabulated ▸ whole)

end QueryBuilder

import QueryBuilder.Proofs.Aspects
import QueryBuilder.Proofs.Identifiers
import QueryBuilder.Proofs.Registry
import QueryBuilder.Proofs.Session

/-!
The names that a query holds.

Main statement: whatever has been done to a query, every column name and every key of its data reads
as an identifier, and every alias of an item can be written between quotes. Reading them once more is
a matter of course.
-/

set_option autoImplicit false

namespace QueryBuilder

-- A name that reads as an identifier, and one that can be quoted as a whole.
def Ident.Reads (name : String) : Prop :=
  ∃ i, Ident.parse name = .ok i

def Ident.Quotes (name : String) : Prop :=
  ∃ i, Ident.quoted name = .ok i

def SelectItem.Named (item : SelectItem) : Prop :=
  ∀ aliasName, item.aliasName = some aliasName → Ident.Quotes aliasName

def DataRow.Named (row : DataRow) : Prop :=
  ∀ c ∈ row, Ident.Reads c.column

structure Query.Named (q : Query) : Prop where
  items : ∀ item ∈ q.items, item.Named
  columns : ∀ name ∈ q.columns, Ident.Reads name
  returning : ∀ item ∈ q.returning, item.Named
  data : DataRow.Named q.data
  rows : ∀ row ∈ q.rows, DataRow.Named row

-- The fields that hold names.
def nameFields : List Field :=
  [.select, .columns, .returning, .data, .rows]

theorem put_named_apart {q : Query} (held : q.Named) {a : Aspect} (apart : ∀ f ∈ nameFields, Aspect.field f ≠ a)
    (x : a.Content) : (q.put a x).Named := by
  have kept (f : Field) (member : f ∈ nameFields) : (q.put a x).look (.field f) = q.look (.field f) :=
    q.look_put_other (apart f member) x
  have items : (q.put a x).items = q.items := kept .select (by decide)
  have columns : (q.put a x).columns = q.columns := kept .columns (by decide)
  have returning : (q.put a x).returning = q.returning := kept .returning (by decide)
  have data : (q.put a x).data = q.data := kept .data (by decide)
  have rows : (q.put a x).rows = q.rows := kept .rows (by decide)
  exact ⟨items ▸ held.items, columns ▸ held.columns, returning ▸ held.returning, data ▸ held.data, rows ▸ held.rows⟩

theorem bare_named (expr : Expr) : (SelectItem.mk none expr).Named :=
  nofun

theorem bare_items_named (exprs : List Expr) : ∀ item ∈ exprs.map (SelectItem.mk none), item.Named := by
  intro item member
  obtain ⟨expr, -, rfl⟩ := List.mem_map.mp member
  exact bare_named expr

theorem named_item_named {aliasName : String} {expr : Expr} {item : SelectItem}
    (made : Change.namedItem aliasName expr = .ok item) : item.Named := by
  obtain ⟨i, quoted, rfl⟩ := map_ok_inv made
  rintro other ⟨rfl⟩
  exact ⟨i, quoted⟩

theorem check_columns_read {names checked : List String} (made : checkColumns names = .ok checked) :
    ∀ name ∈ checked, Ident.Reads name := by
  induction names generalizing checked with
  | nil =>
      cases made
      exact nofun
  | cons name names ih =>
      rw [checkColumns] at made
      cases read : Ident.parse name with
      | error e =>
          rw [read] at made
          cases made
      | ok i =>
          rw [read] at made
          obtain ⟨rest, later, rfl⟩ := map_ok_inv made
          exact List.forall_mem_cons.mpr ⟨⟨i, read⟩, ih later⟩

namespace DataRow

theorem nil_named : DataRow.Named [] :=
  List.forall_mem_nil _

theorem check_reads {c d : Cell} (made : check c = .ok d) : Ident.Reads d.column := by
  rw [check] at made
  cases read : Ident.parse c.column with
  | error e =>
      rw [read] at made
      cases made
  | ok i =>
      rw [read] at made
      obtain ⟨column, value⟩ := c
      cases value with
      | array items => cases made
      | _ =>
          cases made
          exact ⟨i, read⟩

theorem put_named {row : DataRow} {c : Cell} (held : row.Named) (reads : Ident.Reads c.column) :
    (row.put c).Named := by
  induction row with
  | nil => exact List.forall_mem_singleton.mpr reads
  | cons d rest ih =>
      obtain ⟨first, others⟩ := List.forall_mem_cons.mp held
      rw [put]
      by_cases same : d.column = c.column
      · rw [if_pos same]
        exact List.forall_mem_cons.mpr ⟨first, others⟩
      · rw [if_neg same]
        exact List.forall_mem_cons.mpr ⟨first, ih others⟩

theorem merge_named {row : DataRow} {cells : List Cell} (held : row.Named) (each : DataRow.Named cells) :
    (row.merge cells).Named := by
  induction cells generalizing row with
  | nil => exact held
  | cons c cells ih =>
      obtain ⟨first, others⟩ := List.forall_mem_cons.mp each
      exact ih (put_named held first) others

section Made

variable {holds : DataRow → Prop}

-- What every cell that may be written keeps is true of a row made from such cells.
theorem of_cells_keeps (kept : ∀ row c d, holds row → check c = .ok d → holds (row.put d)) {row made : DataRow}
    {cells : List Cell} (held : holds row) (given : ofCells row cells = .ok made) : holds made := by
  induction cells generalizing row with
  | nil =>
      cases given
      exact held
  | cons c cells ih =>
      rw [ofCells] at given
      cases checked : check c with
      | error e =>
          rw [checked] at given
          cases given
      | ok d =>
          rw [checked] at given
          exact ih (kept row c d held checked) given

theorem of_lists_keeps (kept : ∀ row c d, holds row → check c = .ok d → holds (row.put d)) (empty : holds [])
    {lists : List (List Cell)} {rows : List DataRow} (given : ofLists lists = .ok rows) : ∀ row ∈ rows, holds row := by
  induction lists generalizing rows with
  | nil =>
      cases given
      exact nofun
  | cons cells lists ih =>
      rw [ofLists] at given
      cases first : ofCells [] cells with
      | error e =>
          rw [first] at given
          cases given
      | ok row =>
          rw [first] at given
          obtain ⟨rest, later, rfl⟩ := map_ok_inv given
          exact List.forall_mem_cons.mpr ⟨of_cells_keeps kept empty first, ih later⟩

end Made

theorem checked_put_named (row : DataRow) (c d : Cell) (held : row.Named) (checked : check c = .ok d) :
    (row.put d).Named :=
  put_named held (check_reads checked)

theorem of_cells_named {row made : DataRow} {cells : List Cell} (held : row.Named)
    (given : ofCells row cells = .ok made) : made.Named :=
  of_cells_keeps checked_put_named held given

theorem of_lists_named {lists : List (List Cell)} {rows : List DataRow} (given : ofLists lists = .ok rows) :
    ∀ row ∈ rows, row.Named :=
  of_lists_keeps checked_put_named nil_named given

end DataRow

theorem reset_named {q : Query} (held : q.Named) (field : Field) : (q.reset field).Named := by
  cases field with
  | select => exact ⟨nofun, held.columns, held.returning, held.data, held.rows⟩
  | columns => exact ⟨held.items, nofun, held.returning, held.data, held.rows⟩
  | returning => exact ⟨held.items, held.columns, nofun, held.data, held.rows⟩
  | data => exact ⟨held.items, held.columns, held.returning, DataRow.nil_named, held.rows⟩
  | rows => exact ⟨held.items, held.columns, held.returning, held.data, nofun⟩
  | _ => exact ⟨held.items, held.columns, held.returning, held.data, held.rows⟩

theorem put_tree_named (q : Query) (slot : Slot) (tree : Condition) (held : q.Named) : (q.putTree slot tree).Named := by
  cases slot <;> exact ⟨held.items, held.columns, held.returning, held.data, held.rows⟩

theorem start_named (s : Start) : s.draft.query.Named := by
  cases s <;> exact ⟨nofun, nofun, nofun, DataRow.nil_named, nofun⟩

-- A call that puts a name into the query tries it first; one that is about no field of names leaves them.
theorem changes_named (call : Call) : ∀ c ∈ call.changes, ∀ q r : Query, q.Named → c q = .ok r → r.Named := by
  by_cases names : ∃ f ∈ nameFields, Aspect.field f ∈ call.aspects
  · cases call with
    | select exprs =>
        refine List.forall_mem_singleton.mpr fun q r held made => ?_
        cases made
        have items := List.forall_mem_append.mpr ⟨held.items, bare_items_named exprs⟩
        exact ⟨items, held.columns, held.returning, held.data, held.rows⟩
    | selectAs aliasName expr =>
        refine List.forall_mem_singleton.mpr fun q r held made => ?_
        obtain ⟨item, named, rfl⟩ := map_ok_inv made
        have items := List.forall_mem_append.mpr ⟨held.items, List.forall_mem_singleton.mpr (named_item_named named)⟩
        exact ⟨items, held.columns, held.returning, held.data, held.rows⟩
    | columns names =>
        refine List.forall_mem_singleton.mpr fun q r held made => ?_
        obtain ⟨checked, read, rfl⟩ := map_ok_inv made
        have columns := List.forall_mem_append.mpr ⟨held.columns, check_columns_read read⟩
        exact ⟨held.items, columns, held.returning, held.data, held.rows⟩
    | values cells =>
        refine List.forall_mem_singleton.mpr fun q r held made => ?_
        obtain ⟨row, given, rfl⟩ := map_ok_inv made
        have data := DataRow.merge_named held.data (DataRow.of_cells_named DataRow.nil_named given)
        exact ⟨held.items, held.columns, held.returning, data, held.rows⟩
    | rows lists =>
        refine List.forall_mem_singleton.mpr fun q r held made => ?_
        obtain ⟨added, given, rfl⟩ := map_ok_inv made
        have rows := List.forall_mem_append.mpr ⟨held.rows, DataRow.of_lists_named given⟩
        exact ⟨held.items, held.columns, held.returning, held.data, rows⟩
    | returning exprs =>
        refine List.forall_mem_singleton.mpr fun q r held made => ?_
        cases made
        have returning := List.forall_mem_append.mpr ⟨held.returning, bare_items_named exprs⟩
        exact ⟨held.items, held.columns, returning, held.data, held.rows⟩
    | returningAs aliasName expr =>
        refine List.forall_mem_singleton.mpr fun q r held made => ?_
        obtain ⟨item, named, rfl⟩ := map_ok_inv made
        have returning := List.forall_mem_append.mpr
          ⟨held.returning, List.forall_mem_singleton.mpr (named_item_named named)⟩
        exact ⟨held.items, held.columns, returning, held.data, held.rows⟩
    | reset name =>
        exact List.forall_mem_singleton.mpr fun q r held made => map_ok made fun field => reset_named held field
    | resetField field =>
        refine List.forall_mem_singleton.mpr fun q r held made => ?_
        cases made
        exact reset_named held field
    | addCondition slot cond params => cases slot <;> simp [nameFields, Call.aspects, Slot.aspect] at names
    | _ => simp [nameFields, Call.aspects] at names
  · intro c member q r held made
    obtain ⟨a, inside, g, about⟩ | ⟨e, rfl⟩ := changes_about call c member
    · rw [about] at made
      exact map_ok made fun x => put_named_apart held (fun f field same => names ⟨f, field, same ▸ inside⟩) x
    · cases made

theorem named_kept : Draft.Kept fun d => d.query.Named :=
  query_kept start_named changes_named put_tree_named

-- The names that the rows of an INSERT go by come from the rows.
theorem add_columns_from {names : List String} {row : DataRow} {name : String} (member : name ∈ addColumns names row) :
    name ∈ names ∨ ∃ c ∈ row, c.column = name := by
  induction row generalizing names with
  | nil => exact .inl member
  | cons c rest ih =>
      rw [addColumns] at member
      rcases ih member with before | ⟨d, inside, same⟩
      · by_cases known : names.contains c.column
        · rw [if_pos known] at before
          exact .inl before
        · rw [if_neg known] at before
          rcases List.mem_append.mp before with old | new
          · exact .inl old
          · exact .inr ⟨c, by simp, (List.mem_singleton.mp new).symm⟩
      · exact .inr ⟨d, by simp [inside], same⟩

theorem collect_columns_read {rows : List DataRow} (each : ∀ row ∈ rows, row.Named) :
    ∀ name ∈ collectColumns rows, Ident.Reads name := by
  have collected (names : List String) (known : ∀ name ∈ names, Ident.Reads name) :
      ∀ name ∈ rows.foldl addColumns names, Ident.Reads name := by
    induction rows generalizing names with
    | nil => exact known
    | cons row rows ih =>
        obtain ⟨first, others⟩ := List.forall_mem_cons.mp each
        refine ih others (addColumns names row) fun name member => ?_
        rcases add_columns_from member with old | ⟨c, inside, rfl⟩
        · exact known name old
        · exact first c inside
  exact collected [] nofun

theorem rows_to_insert_named {q : Query} (named : q.Named) : ∀ row ∈ q.rowsToInsert, DataRow.Named row := by
  intro row member
  rcases List.mem_cons.mp (List.mem_filter.mp member).1 with rfl | listed
  · exact named.data
  · exact named.rows row listed

theorem inserted_names_read {q : Query} (named : q.Named) : ∀ name ∈ q.insertedNames, Ident.Reads name := by
  rw [Query.insertedNames]
  by_cases none : q.columns.isEmpty
  · rw [if_pos none]
    exact collect_columns_read (rows_to_insert_named named)
  · rw [if_neg none]
    exact named.columns

theorem parse_columns_total {names : List String} (each : ∀ name ∈ names, Ident.Reads name) :
    ∃ columns, parseColumns names = .ok columns := by
  induction names with
  | nil => exact ⟨[], rfl⟩
  | cons name names ih =>
      obtain ⟨⟨i, read⟩, others⟩ := List.forall_mem_cons.mp each
      obtain ⟨columns, later⟩ := ih others
      exact ⟨i :: columns, by rw [parse_columns_cons, read, later]; rfl⟩

theorem source_columns_total {q : Query} (named : q.Named) (source : Query) :
    ∃ columns, q.sourceColumns source = .ok columns := by
  rw [Query.sourceColumns]
  by_cases none : q.columns.isEmpty
  · exact ⟨_, if_pos none⟩
  · rw [if_neg none]
    exact parse_columns_total named.columns

theorem assignment_total {c : Cell} (reads : Ident.Reads c.column) :
    ∃ i, Query.assignment c = .ok (.ident i ++ .literal " = " ++ valueFragment c.value) := by
  obtain ⟨i, read⟩ := reads
  exact ⟨i, by rw [Query.assignment, read]; rfl⟩

theorem item_fragment_total {item : SelectItem} (named : item.Named) : ∃ f, item.fragment = .ok f := by
  obtain ⟨aliasName, expr⟩ := item
  cases aliasName with
  | none => exact ⟨_, rfl⟩
  | some aliasName =>
      obtain ⟨i, quoted⟩ := named aliasName rfl
      exact ⟨expr.fragment ++ .literal " AS " ++ .ident i, by simp only [SelectItem.fragment, quoted, Except.map]⟩

-- What the compiler reads once more, and what it makes of it.
structure Query.NamesRead (q : Query) : Prop where
  inserted : ∃ columns, parseColumns q.insertedNames = .ok columns
  source : ∀ source, ∃ columns, q.sourceColumns source = .ok columns
  assigned : ∃ fs, Query.assignments q.data = .ok fs
  items : ∃ fs, itemList q.items = .ok fs
  returning : ∃ fs, itemList q.returning = .ok fs

theorem item_list_total {items : List SelectItem} (named : ∀ item ∈ items, item.Named) :
    ∃ fs, itemList items = .ok fs := by
  induction items with
  | nil => exact ⟨[], rfl⟩
  | cons item items ih =>
      obtain ⟨first, others⟩ := List.forall_mem_cons.mp named
      obtain ⟨f, made⟩ := item_fragment_total first
      obtain ⟨fs, later⟩ := ih others
      exact ⟨f :: fs, by rw [item_list_cons, made, later]; rfl⟩

theorem assignments_total {row : DataRow} (named : row.Named) : ∃ fs, Query.assignments row = .ok fs := by
  induction row with
  | nil => exact ⟨[], rfl⟩
  | cons c row ih =>
      obtain ⟨first, others⟩ := List.forall_mem_cons.mp named
      obtain ⟨i, made⟩ := assignment_total first
      obtain ⟨fs, later⟩ := ih others
      exact ⟨_ :: fs, by rw [assignments_cons, made, later]; rfl⟩

theorem named_names_read {q : Query} (named : q.Named) : q.NamesRead where
  inserted := parse_columns_total (inserted_names_read named)
  source := source_columns_total named
  assigned := assignments_total named.data
  items := item_list_total named.items
  returning := item_list_total named.returning

end QueryBuilder

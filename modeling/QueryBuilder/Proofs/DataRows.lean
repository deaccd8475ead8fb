import Mathlib.Data.List.Nodup
import QueryBuilder.Proofs.Names

/-!
The columns of the data that a query holds.

Main statement: whatever has been done to a query, a row of its data has a column at most once. The
columns of all rows are listed once each, as they are first seen; looking one up in a row finds the
value that the row has for it.
-/

set_option autoImplicit false

namespace QueryBuilder

-- A column at most once.
def DataRow.Apart (row : DataRow) : Prop :=
  (row.map Cell.column).Nodup

structure Query.RowsApart (q : Query) : Prop where
  data : DataRow.Apart q.data
  rows : ∀ row ∈ q.rows, DataRow.Apart row

namespace DataRow

theorem nil_apart : DataRow.Apart [] :=
  List.nodup_nil

theorem mem_put_columns {row : DataRow} {c : Cell} {name : String} (member : name ∈ (row.put c).map Cell.column) :
    name = c.column ∨ name ∈ row.map Cell.column := by
  induction row with
  | nil => exact .inl (List.mem_singleton.mp member)
  | cons d rest ih =>
      rw [put] at member
      by_cases same : d.column = c.column
      · rw [if_pos same] at member
        exact .inr member
      · rw [if_neg same] at member
        rcases List.mem_cons.mp member with first | later
        · exact .inr (List.mem_cons.mpr (.inl first))
        · exact (ih later).imp_right (List.mem_cons_of_mem _)

theorem put_apart {row : DataRow} (apart : row.Apart) (c : Cell) : (row.put c).Apart := by
  induction row with
  | nil => exact List.nodup_singleton _
  | cons d rest ih =>
      obtain ⟨alone, others⟩ := List.nodup_cons.mp apart
      rw [put]
      by_cases same : d.column = c.column
      · rw [if_pos same]
        exact List.nodup_cons.mpr ⟨alone, others⟩
      · rw [if_neg same]
        refine List.nodup_cons.mpr ⟨fun member => ?_, ih others⟩
        exact (mem_put_columns member).elim same alone

theorem merge_apart {row : DataRow} (apart : row.Apart) (cells : List Cell) : (row.merge cells).Apart := by
  induction cells generalizing row with
  | nil => exact apart
  | cons c cells ih => exact ih (put_apart apart c)

theorem of_lists_apart {lists : List (List Cell)} {rows : List DataRow} (given : ofLists lists = .ok rows) :
    ∀ row ∈ rows, row.Apart := by
  have kept (row : DataRow) (c d : Cell) (apart : row.Apart) (_ : check c = .ok d) : (row.put d).Apart :=
    put_apart apart d
  exact of_lists_keeps kept nil_apart given

end DataRow

theorem put_rows_apart {q : Query} (held : q.RowsApart) {a : Aspect} (data : Aspect.field .data ≠ a)
    (rows : Aspect.field .rows ≠ a) (x : a.Content) : (q.put a x).RowsApart := by
  have sameData : (q.put a x).data = q.data := q.look_put_other data x
  have sameRows : (q.put a x).rows = q.rows := q.look_put_other rows x
  exact ⟨sameData ▸ held.data, sameRows ▸ held.rows⟩

theorem reset_rows_apart {q : Query} (held : q.RowsApart) (field : Field) : (q.reset field).RowsApart := by
  cases field with
  | data => exact ⟨DataRow.nil_apart, held.rows⟩
  | rows => exact ⟨held.data, nofun⟩
  | _ => exact ⟨held.data, held.rows⟩

theorem put_tree_rows_apart (q : Query) (slot : Slot) (tree : Condition) (held : q.RowsApart) :
    (q.putTree slot tree).RowsApart := by
  cases slot <;> exact ⟨held.data, held.rows⟩

theorem start_rows_apart (s : Start) : s.draft.query.RowsApart := by
  cases s <;> exact ⟨DataRow.nil_apart, nofun⟩

-- Only two calls put data into a query; a call about another field leaves the rows.
theorem changes_rows_apart (call : Call) :
    ∀ c ∈ call.changes, ∀ q r : Query, q.RowsApart → c q = .ok r → r.RowsApart := by
  by_cases about : Aspect.field .data ∈ call.aspects ∨ Aspect.field .rows ∈ call.aspects
  · cases call with
    | values cells =>
        refine List.forall_mem_singleton.mpr fun q r held made => ?_
        obtain ⟨row, -, rfl⟩ := map_ok_inv made
        exact ⟨DataRow.merge_apart held.data row, held.rows⟩
    | rows lists =>
        refine List.forall_mem_singleton.mpr fun q r held made => ?_
        obtain ⟨added, given, rfl⟩ := map_ok_inv made
        exact ⟨held.data, List.forall_mem_append.mpr ⟨held.rows, DataRow.of_lists_apart given⟩⟩
    | reset name =>
        exact List.forall_mem_singleton.mpr fun q r held made => map_ok made fun field => reset_rows_apart held field
    | resetField field =>
        refine List.forall_mem_singleton.mpr fun q r held made => ?_
        cases made
        exact reset_rows_apart held field
    | addCondition slot cond params => cases slot <;> simp [Call.aspects, Slot.aspect] at about
    | _ => simp [Call.aspects] at about
  · intro c member q r held made
    obtain ⟨a, inside, g, changed⟩ | ⟨e, rfl⟩ := changes_about call c member
    · rw [changed] at made
      refine map_ok made fun x => put_rows_apart held (fun same => ?_) (fun same => ?_) x
      · exact about (.inl (same ▸ inside))
      · exact about (.inr (same ▸ inside))
    · cases made

theorem rows_apart_kept : Draft.Kept fun d => d.query.RowsApart :=
  query_kept start_rows_apart changes_rows_apart put_tree_rows_apart

-- The columns that are not there yet follow, each once.
theorem add_columns_listed (names : List String) (row : DataRow) :
    addColumns names row = names ++ ((row.map Cell.column).filter fun name => !names.contains name).eraseDups := by
  induction row generalizing names with
  | nil => exact (List.append_nil names).symm
  | cons c rest ih =>
      rw [addColumns, ih, List.map_cons]
      by_cases known : names.contains c.column
      · rw [if_pos known, List.filter_cons_of_neg (by simpa using known)]
      · have later : ((rest.map Cell.column).filter fun name => !(names ++ [c.column]).contains name) =
            ((rest.map Cell.column).filter fun name => !names.contains name).filter fun name => !name == c.column := by
          rw [List.filter_filter]
          exact List.filter_congr fun name _ => by simp [Bool.and_comm, BEq.beq]
        rw [if_neg known, List.filter_cons_of_pos (by simpa using known), List.eraseDups_cons, later, List.append_assoc,
          List.singleton_append]

theorem add_columns_append (names : List String) (row other : DataRow) :
    addColumns names (row ++ other) = addColumns (addColumns names row) other := by
  induction row generalizing names with
  | nil => rfl
  | cons c rest ih => exact ih _

theorem add_columns_apart {names : List String} (apart : names.Nodup) (row : DataRow) : (addColumns names row).Nodup := by
  induction row generalizing names with
  | nil => exact apart
  | cons c rest ih =>
      rw [addColumns]
      by_cases known : names.contains c.column
      · rw [if_pos known]
        exact ih apart
      · rw [if_neg known]
        refine ih (List.nodup_append'.mpr ⟨apart, List.nodup_singleton _, ?_⟩)
        exact List.disjoint_singleton.mpr fun member => known (by simpa using member)

-- Where one row ends and the next begins makes no difference.
theorem collect_columns_flatten (rows : List DataRow) : collectColumns rows = addColumns [] rows.flatten := by
  have folded (names : List String) : rows.foldl addColumns names = addColumns names rows.flatten := by
    induction rows generalizing names with
    | nil => rfl
    | cons row rows ih => rw [List.foldl_cons, ih, List.flatten_cons, add_columns_append]
  exact folded []

theorem collected_apart (rows : List DataRow) : (collectColumns rows).Nodup := by
  rw [collect_columns_flatten]
  exact add_columns_apart List.nodup_nil _

-- Each column once, in the order of first sight.
theorem collect_columns_distinct (rows : List DataRow) :
    collectColumns rows = (rows.flatten.map Cell.column).eraseDups := by
  have all : ((rows.flatten.map Cell.column).filter fun name => !([] : List String).contains name) =
      rows.flatten.map Cell.column :=
    List.filter_eq_self.mpr fun _ _ => rfl
  rw [collect_columns_flatten, add_columns_listed, all, List.nil_append]

theorem rows_to_insert_flatten (q : Query) : q.rowsToInsert.flatten = (q.data :: q.rows).flatten := by
  rw [Query.rowsToInsert]
  generalize q.data :: q.rows = rows
  induction rows with
  | nil => rfl
  | cons row rows ih => cases row <;> simp [ih]

theorem row_get_of_mem {row : DataRow} (apart : row.Apart) {c : Cell} (member : c ∈ row) :
    row.get? c.column = some c.value := by
  rw [DataRow.get?]
  induction row with
  | nil => cases member
  | cons d rest ih =>
      obtain ⟨alone, others⟩ := List.nodup_cons.mp apart
      rcases List.mem_cons.mp member with rfl | later
      · simp
      · have other : d.column ≠ c.column := fun same => alone (same ▸ List.mem_map_of_mem later)
        rw [List.find?_cons_of_neg (by simpa using other)]
        exact ih others later

theorem row_get_absent {row : DataRow} {name : String} (absent : name ∉ row.map Cell.column) :
    row.get? name = none := by
  have none : (row.find? fun c => c.column == name) = none := by
    refine List.find?_eq_none.mpr fun c member same => absent ?_
    exact beq_iff_eq.mp same ▸ List.mem_map_of_mem member
  rw [DataRow.get?, none]
  rfl

end QueryBuilder

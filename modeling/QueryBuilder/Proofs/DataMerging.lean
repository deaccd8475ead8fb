import Mathlib
import QueryBuilder.Proofs.DataRows
import QueryBuilder.Proofs.IdentifierText

/-!
Data that comes to a query in several calls.

Main statement: a call is refused for the first column it mentions that does not fit, and then
changes nothing. After any calls, some of them refused, the data row has each column once, where it
was first written, with the value written last; the rows and the column names stand as they came.
-/

set_option autoImplicit false

namespace QueryBuilder

-- The calls that bring data; SET brings a single cell.
inductive DataCall where
  | values (cells : List Cell)
  | set (column : String) (value : Value)
  | rows (lists : List (List Cell))
  | columns (names : List String)

-- A column that a call names, with the value it brings for it, if it brings one.
structure Mention where
  column : String
  value : Option Value

def Cell.mention (c : Cell) : Mention :=
  ⟨c.column, some c.value⟩

namespace Mention

def Fits (m : Mention) : Prop :=
  (∃ i : Ident, i.Grammatical ∧ i.toSql = m.column) ∧ ∀ items, m.value ≠ some (.array items)

-- What is wrong with a mention, the name before the value.
inductive Faulty : Mention → Error → Prop
  | name {column : String} {value : Option Value} {fault : Ident.Fault} :
      Ident.read column.toList = .error fault → Faulty ⟨column, value⟩ (Ident.refuse column fault)
  | array {column : String} {items : List Value} :
      Ident.Reads column → Faulty ⟨column, some (.array items)⟩ (.arrayInData column)

def fault? (m : Mention) : Option Error :=
  match Ident.parse m.column, m.value with
  | .error e, _ => some e
  | .ok _, some (.array _) => some (.arrayInData m.column)
  | .ok _, _ => none

end Mention

namespace DataCall

def call : DataCall → Call
  | values cells => .values cells
  | set column value => .values [⟨column, value⟩]
  | rows lists => .rows lists
  | columns names => .columns names

def mentions : DataCall → List Mention
  | values cells => cells.map Cell.mention
  | set column value => [⟨column, some value⟩]
  | rows lists => lists.flatten.map Cell.mention
  | columns names => names.map fun name => ⟨name, none⟩

-- What a call writes into the data row, and the rows and names that it adds.
def cells : DataCall → List Cell
  | values cells => cells
  | set column value => [⟨column, value⟩]
  | rows _ | columns _ => []

def lists : DataCall → List (List Cell)
  | rows lists => lists
  | values _ | set _ _ | columns _ => []

def names : DataCall → List String
  | columns names => names
  | values _ | set _ _ | rows _ => []

def fault? (c : DataCall) : Option Error :=
  c.mentions.findSome? Mention.fault?

-- The query with what a call brings, whether or not it may bring it.
def into (q : Query) (c : DataCall) : Query :=
  { q with
    data := DataRow.merge q.data (DataRow.merge [] c.cells)
    rows := q.rows ++ c.lists.map (DataRow.merge [])
    columns := q.columns ++ c.names }

-- Makes calls in order, and gives those that were not refused and the draft behind the last one.
def runAll : List DataCall → Draft → List DataCall × Draft
  | [], d => ([], d)
  | c :: cs, d =>
      match Draft.call c.call d with
      | .error _ e => runAll cs e
      | .ok _ e =>
          let (taken, e) := runAll cs e
          (c :: taken, e)

end DataCall

-- Each column that is written, once and where it is first written, with the value written last.
structure DataRow.Settles (cells : List Cell) (row : DataRow) : Prop where
  apart : row.Apart
  columns : row.map Cell.column = (cells.map Cell.column).eraseDups
  values : ∀ name, row.get? name = DataRow.get? cells.reverse name

-- What calls that were not refused, in order, make of the data of a query.
structure Query.Gathers (q : Query) (taken : List DataCall) (r : Query) : Prop where
  data : DataRow.Settles (q.data ++ taken.flatMap DataCall.cells) r.data
  rows : ∃ added, List.Forall₂ DataRow.Settles (taken.flatMap DataCall.lists) added ∧ r.rows = q.rows ++ added
  columns : r.columns = q.columns ++ taken.flatMap DataCall.names

theorem reads_iff_written (name : String) : Ident.Reads name ↔ ∃ i : Ident, i.Grammatical ∧ i.toSql = name := by
  constructor
  · rintro ⟨i, parsed⟩
    exact ⟨i, (well_formed_iff_grammatical i).mp (parse_well_formed parsed), written_of_parse parsed⟩
  · rintro ⟨i, grammatical, rfl⟩
    exact ⟨i, parse_written ((well_formed_iff_grammatical i).mpr grammatical)⟩

theorem map_error_inv {ε δ α : Type} {r : Except ε α} {f : ε → δ} {e : δ} (failed : r.mapError f = .error e) :
    ∃ fault, r = .error fault ∧ f fault = e := by
  cases r with
  | error fault => exact ⟨fault, rfl, Except.error.inj failed⟩
  | ok a => cases failed

section Mentions

variable {m : Mention}

theorem fits_of_no_fault (unfaulted : m.fault? = none) : m.Fits := by
  obtain ⟨column, value⟩ := m
  rw [Mention.fault?] at unfaulted
  cases parsed : Ident.parse column with
  | error e =>
      rw [parsed] at unfaulted
      cases unfaulted
  | ok i =>
      refine ⟨(reads_iff_written column).mp ⟨i, parsed⟩, fun items held => ?_⟩
      rw [parsed, held] at unfaulted
      cases unfaulted

theorem faulty_of_fault {e : Error} (found : m.fault? = some e) : m.Faulty e := by
  obtain ⟨column, value⟩ := m
  rw [Mention.fault?] at found
  cases parsed : Ident.parse column with
  | error other =>
      rw [parsed] at found
      cases found
      rw [Ident.parse] at parsed
      obtain ⟨fault, read, rfl⟩ := map_error_inv parsed
      exact .name read
  | ok i =>
      simp only [parsed] at found
      split at found
      · contradiction
      · rename_i items held
        cases held
        cases found
        exact .array ⟨i, parsed⟩
      · cases found

end Mentions

namespace DataRow

theorem check_judged (c : Cell) : check c = c.mention.fault?.elim (.ok c) .error := by
  obtain ⟨column, value⟩ := c
  simp only [check, Mention.fault?, Cell.mention]
  cases Ident.parse column with
  | error e => rfl
  | ok i => cases value <;> rfl

theorem of_cells_judged (row : DataRow) (cells : List Cell) :
    ofCells row cells = ((cells.map Cell.mention).findSome? Mention.fault?).elim (.ok (row.merge cells)) .error := by
  induction cells generalizing row with
  | nil => rfl
  | cons c cells ih =>
      rw [ofCells, check_judged, List.map_cons, List.findSome?_cons]
      cases c.mention.fault? with
      | some e => rfl
      | none => exact ih (row.put c)

theorem of_lists_judged (lists : List (List Cell)) :
    ofLists lists =
      ((lists.flatten.map Cell.mention).findSome? Mention.fault?).elim (.ok (lists.map (merge []))) .error := by
  induction lists with
  | nil => rfl
  | cons cells lists ih =>
      rw [ofLists, of_cells_judged, ih, List.flatten_cons, List.map_append, List.findSome?_append]
      cases (cells.map Cell.mention).findSome? Mention.fault? with
      | some e => rfl
      | none => cases (lists.flatten.map Cell.mention).findSome? Mention.fault? <;> rfl

end DataRow

theorem check_columns_judged (names : List String) :
    checkColumns names =
      ((names.map fun name => (⟨name, none⟩ : Mention)).findSome? Mention.fault?).elim (.ok names) .error := by
  induction names with
  | nil => rfl
  | cons name names ih =>
      rw [checkColumns, ih, List.map_cons, List.findSome?_cons, Mention.fault?]
      cases Ident.parse name with
      | error e => rfl
      | ok i =>
          cases (names.map fun name => (⟨name, none⟩ : Mention)).findSome? Mention.fault? <;> rfl

-- A call whose arguments are made into something first, and then put in, is decided by the first step alone.
theorem judged_change {α : Type} {made : Except Error α} {fault : Option Error} {a : α}
    (judged : made = fault.elim (.ok a) .error) (f : Query → α → Query) (d : Draft) :
    Draft.changeAll [fun q => made.map (f q)] d =
      fault.elim (.ok () (d.replace (f d.query a))) fun e => .error e d := by
  subst judged
  cases fault <;> rfl

theorem data_call_judged (c : DataCall) (d : Draft) :
    Draft.call c.call d = c.fault?.elim (.ok () (d.replace (c.into d.query))) fun e => .error e d := by
  cases c with
  | values cells =>
      simp only [DataCall.into, DataCall.lists, DataCall.names, List.map_nil, List.append_nil]
      exact judged_change (DataRow.of_cells_judged [] cells) _ d
  | set column value =>
      simp only [DataCall.into, DataCall.lists, DataCall.names, List.map_nil, List.append_nil]
      exact judged_change (DataRow.of_cells_judged [] [⟨column, value⟩]) _ d
  | rows lists =>
      simp only [DataCall.into, DataCall.names, List.append_nil]
      exact judged_change (DataRow.of_lists_judged lists) _ d
  | columns names =>
      simp only [DataCall.into, DataCall.lists, List.map_nil, List.append_nil]
      exact judged_change (check_columns_judged names) _ d

theorem data_call_outcome (c : DataCall) (d : Draft) :
    (∀ m ∈ c.mentions, m.Fits) ∧ (∃ e, Draft.call c.call d = .ok () e) ∨
      ∃ before m after err, c.mentions = before ++ m :: after ∧ (∀ b ∈ before, b.Fits) ∧ m.Faulty err ∧
        Draft.call c.call d = .error err d := by
  rw [data_call_judged]
  cases found : c.fault? with
  | none =>
      have each := List.findSome?_eq_none_iff.mp found
      exact .inl ⟨fun m member => fits_of_no_fault (each m member), _, rfl⟩
  | some err =>
      obtain ⟨before, m, after, split, faulty, fitting⟩ := List.findSome?_eq_some_iff.mp found
      exact .inr ⟨before, m, after, err, split, fun b member => fits_of_no_fault (fitting b member),
        faulty_of_fault faulty, rfl⟩

theorem erase_dups_concat (names : List String) (name : String) :
    (names ++ [name]).eraseDups = if name ∈ names then names.eraseDups else names.eraseDups ++ [name] := by
  rw [List.eraseDups_append]
  by_cases known : name ∈ names <;> simp [List.removeAll, List.eraseDups_cons, known]

theorem erase_dups_inner (names more : List String) :
    (names ++ more.eraseDups).eraseDups = (names ++ more).eraseDups := by
  induction more using List.reverseRecOn with
  | nil => rfl
  | append_singleton more name ih =>
      rw [erase_dups_concat, ← List.append_assoc, erase_dups_concat]
      by_cases known : name ∈ more
      · rw [if_pos known, if_pos (List.mem_append_right _ known), ih]
      · rw [if_neg known, ← List.append_assoc, erase_dups_concat, ih]
        simp only [List.mem_append, List.mem_eraseDups]

theorem erase_dups_apart {names : List String} (apart : names.Nodup) : names.eraseDups = names := by
  induction names using List.reverseRecOn with
  | nil => rfl
  | append_singleton names name ih =>
      obtain ⟨others, -, separate⟩ := List.nodup_append'.mp apart
      rw [erase_dups_concat, if_neg (List.disjoint_singleton.mp separate), ih others]

namespace DataRow

theorem put_columns (row : DataRow) (c : Cell) :
    (row.put c).map Cell.column =
      if c.column ∈ row.map Cell.column then row.map Cell.column else row.map Cell.column ++ [c.column] := by
  induction row with
  | nil => rfl
  | cons d rest ih =>
      rw [put]
      by_cases same : d.column = c.column
      · rw [if_pos same, if_pos (by simp [same])]
        rfl
      · rw [if_neg same, List.map_cons, ih, List.map_cons]
        by_cases known : c.column ∈ rest.map Cell.column
        · rw [if_pos known, if_pos (List.mem_cons_of_mem _ known)]
        · rw [if_neg known, if_neg (List.not_mem_cons_of_ne_of_not_mem (Ne.symm same) known), List.cons_append]

theorem get_cons (c : Cell) (row : DataRow) (name : String) :
    get? (c :: row) name = if c.column = name then some c.value else get? row name := by
  by_cases same : c.column = name <;> simp [get?, same]

theorem get_put (row : DataRow) (c : Cell) (name : String) :
    (row.put c).get? name = if c.column = name then some c.value else row.get? name := by
  induction row with
  | nil => exact get_cons c [] name
  | cons d rest ih =>
      rw [put]
      by_cases same : d.column = c.column
      · rw [if_pos same, get_cons, get_cons]
        by_cases wanted : d.column = name
        · rw [if_pos wanted, if_pos (same ▸ wanted)]
        · rw [if_neg wanted, if_neg (same ▸ wanted), if_neg wanted]
      · rw [if_neg same, get_cons, ih, get_cons]
        by_cases wanted : d.column = name
        · rw [if_pos wanted, if_pos wanted, if_neg fun other => same (wanted.trans other.symm)]
        · rw [if_neg wanted, if_neg wanted]

theorem get_append (row other : DataRow) (name : String) :
    get? (row ++ other) name = (row.get? name).or (other.get? name) := by
  rw [get?, List.find?_append]
  cases found : row.find? fun c => c.column == name <;> simp [get?, found]

-- Where each column stands once, the order of the cells makes no difference.
theorem get_reverse {row : DataRow} (apart : row.Apart) (name : String) : get? row.reverse name = row.get? name := by
  have turned : DataRow.Apart row.reverse := by
    rw [Apart, List.map_reverse]
    exact List.nodup_reverse.mpr apart
  by_cases known : name ∈ row.map Cell.column
  · obtain ⟨c, member, rfl⟩ := List.mem_map.mp known
    rw [row_get_of_mem apart member, row_get_of_mem turned (List.mem_reverse.mpr member)]
  · rw [row_get_absent known, row_get_absent (by rwa [List.map_reverse, List.mem_reverse])]

section Settled

variable {cells added : List Cell} {row new : DataRow}

theorem settles_nil : Settles [] [] :=
  ⟨nil_apart, rfl, fun _ => rfl⟩

theorem settles_apart (apart : row.Apart) : Settles row row :=
  ⟨apart, (erase_dups_apart apart).symm, fun name => (get_reverse apart name).symm⟩

theorem settles_put (settles : Settles cells row) (c : Cell) : Settles (cells ++ [c]) (row.put c) where
  apart := put_apart settles.apart c
  columns := by
    rw [put_columns, List.map_append, List.map_singleton, erase_dups_concat, settles.columns]
    simp only [List.mem_eraseDups]
  values name := by
    rw [get_put, settles.values, List.reverse_append, List.reverse_singleton, List.singleton_append, get_cons]

theorem settles_merge (settles : Settles cells row) (added : List Cell) : Settles (cells ++ added) (row.merge added) := by
  induction added generalizing cells row with
  | nil => rwa [List.append_nil]
  | cons c added ih =>
      have next := ih (settles_put settles c)
      rwa [List.append_assoc, List.singleton_append] at next

-- Cells that are settled among themselves before they are merged come to the same.
theorem settles_merge_settled (settles : Settles cells row) (inner : Settles added new) :
    Settles (cells ++ added) (row.merge new) := by
  have merged := settles_merge settles new
  refine ⟨merged.apart, ?_, fun name => ?_⟩
  · rw [merged.columns, List.map_append, List.map_append, inner.columns, erase_dups_inner]
  · rw [merged.values, List.reverse_append, List.reverse_append, get_append, get_append, get_reverse inner.apart,
      inner.values]

end Settled

end DataRow

section Gathered

variable {q r : Query} {taken : List DataCall}

theorem gathers_start (apart : q.RowsApart) : q.Gathers [] q where
  data := by
    rw [List.flatMap_nil, List.append_nil]
    exact DataRow.settles_apart apart.data
  rows := ⟨[], .nil, (List.append_nil _).symm⟩
  columns := (List.append_nil _).symm

theorem gathers_into (gathers : q.Gathers taken r) (c : DataCall) : q.Gathers (taken ++ [c]) (c.into r) := by
  obtain ⟨data, ⟨added, settled, rows⟩, columns⟩ := gathers
  have fresh (cells : List Cell) : DataRow.Settles cells (DataRow.merge [] cells) :=
    DataRow.settles_merge DataRow.settles_nil cells
  have lists : List.Forall₂ DataRow.Settles c.lists (c.lists.map (DataRow.merge [])) :=
    List.forall₂_map_right_iff.mpr (List.forall₂_same.mpr fun cells _ => fresh cells)
  constructor
  · rw [List.flatMap_append, List.flatMap_singleton, ← List.append_assoc]
    exact DataRow.settles_merge_settled data (fresh c.cells)
  · rw [List.flatMap_append, List.flatMap_singleton]
    refine ⟨added ++ c.lists.map (DataRow.merge []), List.rel_append settled lists, ?_⟩
    rw [DataCall.into, rows, List.append_assoc]
  · rw [List.flatMap_append, List.flatMap_singleton, ← List.append_assoc, DataCall.into, columns]

theorem run_gathers (calls : List DataCall) (d : Draft) (gathers : q.Gathers taken d.query) :
    q.Gathers (taken ++ (DataCall.runAll calls d).1) (DataCall.runAll calls d).2.query := by
  induction calls generalizing d taken with
  | nil => rwa [DataCall.runAll, List.append_nil]
  | cons c calls ih =>
      have judged := data_call_judged c d
      rw [DataCall.runAll]
      cases found : c.fault? with
      | some e =>
          rw [found] at judged
          rw [judged]
          exact ih d gathers
      | none =>
          rw [found] at judged
          have later := ih (d.replace (c.into d.query)) (gathers_into gathers c)
          rw [List.append_assoc, List.singleton_append] at later
          rw [judged]
          exact later

end Gathered

theorem brought_data_settles (start : Start) (actions : List Action) (d : Draft)
    (reachable : d ∈ ((Session.begin start).run actions).drafts) (calls : List DataCall) :
    (∀ (c : DataCall) (e : Draft),
      (∀ m ∈ c.mentions, m.Fits) ∧ (∃ f, Draft.call c.call e = .ok () f) ∨
        ∃ before m after err, c.mentions = before ++ m :: after ∧ (∀ b ∈ before, b.Fits) ∧ m.Faulty err ∧
          Draft.call c.call e = .error err e) ∧
    d.query.Gathers (DataCall.runAll calls d).1 (DataCall.runAll calls d).2.query := by
  refine ⟨data_call_outcome, ?_⟩
  have apart : d.query.RowsApart := reachable_keeps rows_apart_kept reachable
  exact run_gathers calls d (gathers_start apart)

-- The second call has an array in its middle, the fourth is one, the sixth has one in its second row.
def orderCalls : List DataCall :=
  [.values [⟨"a", .int 1⟩, ⟨"b", .int 2⟩, ⟨"a", .int 3⟩], .values [⟨"c", .int 4⟩, ⟨"d", .array []⟩, ⟨"a", .int 0⟩],
    .set "b" .null, .set "c" (.array []), .rows [[⟨"x", .int 6⟩, ⟨"x", .int 7⟩], []],
    .rows [[⟨"y", .int 8⟩], [⟨"z", .array [.null]⟩]], .columns ["a", "b"], .columns ["a"]]

def orderTaken : List DataCall :=
  [.values [⟨"a", .int 1⟩, ⟨"b", .int 2⟩, ⟨"a", .int 3⟩], .set "b" .null,
    .rows [[⟨"x", .int 6⟩, ⟨"x", .int 7⟩], []], .columns ["a", "b"], .columns ["a"]]

def orderStart : Draft :=
  .ofQuery { Query.ofTable .insert "orders" with data := [⟨"b", .int 0⟩] }

def orderSettled : Draft :=
  .ofQuery { Query.ofTable .insert "orders" with
    data := [⟨"b", .null⟩, ⟨"a", .int 3⟩]
    rows := [[⟨"x", .int 7⟩], []]
    columns := ["a", "b", "a"] }

theorem order_data_settles :
    orderStart ∈ ((Session.begin (.ofTable .insert "orders")).run [.call 0 (.values [⟨"b", .int 0⟩])]).drafts ∧
    DataCall.runAll orderCalls orderStart = (orderTaken, orderSettled) ∧
    orderStart.query.Gathers orderTaken orderSettled.query := by
  have reachable :
      orderStart ∈ ((Session.begin (.ofTable .insert "orders")).run [.call 0 (.values [⟨"b", .int 0⟩])]).drafts := by
    have made : ((Session.begin (.ofTable .insert "orders")).run [.call 0 (.values [⟨"b", .int 0⟩])]).drafts =
        [orderStart] := by
      cbv
    exact made ▸ .head _
  have made : DataCall.runAll orderCalls orderStart = (orderTaken, orderSettled) := by
    cbv
  have settled := (brought_data_settles _ _ orderStart reachable orderCalls).2
  rw [made] at settled
  exact ⟨reachable, made, settled⟩

end QueryBuilder

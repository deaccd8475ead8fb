import QueryBuilder.Query.Change

/-!
The aspects of a query: its kind, and each of the fields that can be reset on their own.

Main statement: each change that a call makes looks at one aspect of the query alone, and leaves all
the others as they are.
-/

set_option autoImplicit false

namespace QueryBuilder

inductive Aspect where
  | kind
  | field (f : Field)
deriving DecidableEq, Repr

-- The name of the main table goes with the tables.
abbrev Aspect.Content : Aspect → Type
  | .kind => QueryKind
  | .field .select => List SelectItem
  | .field .distinct => Bool
  | .field .tables => List Table × Option String
  | .field .joins => List JoinTree
  | .field .where_ => Option Condition
  | .field .groupBy => List Expr
  | .field .having => Option Condition
  | .field .orderBy => List Expr
  | .field .limit => Option Int64
  | .field .offset => Option Int64
  | .field .combine => List SetOperation
  | .field .columns => List String
  | .field .source => Option Query
  | .field .returning => List SelectItem
  | .field .data => DataRow
  | .field .rows => List DataRow
  | .field .leading => List Fragment
  | .field .trailing => List Fragment

namespace Query

def look (q : Query) : (a : Aspect) → a.Content
  | .kind => q.kind
  | .field .select => q.items
  | .field .distinct => q.distinct
  | .field .tables => (q.tables, q.main)
  | .field .joins => q.joinTrees
  | .field .where_ => q.whereTree
  | .field .groupBy => q.groupBy
  | .field .having => q.havingTree
  | .field .orderBy => q.orderBy
  | .field .limit => q.limit
  | .field .offset => q.offset
  | .field .combine => q.setOperations
  | .field .columns => q.columns
  | .field .source => q.source
  | .field .returning => q.returning
  | .field .data => q.data
  | .field .rows => q.rows
  | .field .leading => q.leading
  | .field .trailing => q.trailing

def put (q : Query) : (a : Aspect) → a.Content → Query
  | .kind, kind => { q with kind }
  | .field .select, items => { q with items }
  | .field .distinct, distinct => { q with distinct }
  | .field .tables, (tables, main) => { q with tables, main }
  | .field .joins, joinTrees => { q with joinTrees }
  | .field .where_, whereTree => { q with whereTree }
  | .field .groupBy, groupBy => { q with groupBy }
  | .field .having, havingTree => { q with havingTree }
  | .field .orderBy, orderBy => { q with orderBy }
  | .field .limit, limit => { q with limit }
  | .field .offset, offset => { q with offset }
  | .field .combine, setOperations => { q with setOperations }
  | .field .columns, columns => { q with columns }
  | .field .source, source => { q with source }
  | .field .returning, returning => { q with returning }
  | .field .data, data => { q with data }
  | .field .rows, rows => { q with rows }
  | .field .leading, leading => { q with leading }
  | .field .trailing, trailing => { q with trailing }

theorem look_put (q : Query) (a : Aspect) (x : a.Content) : (q.put a x).look a = x := by
  cases a with
  | kind => rfl
  | field f => cases f <;> rfl

theorem look_put_other (q : Query) {a b : Aspect} (apart : b ≠ a) (x : a.Content) : (q.put a x).look b = q.look b := by
  cases a with
  | kind =>
      cases b with
      | kind => exact absurd rfl apart
      | field g => cases g <;> rfl
  | field f =>
      cases b with
      | kind => cases f <;> rfl
      | field g => cases f <;> cases g <;> first | rfl | exact absurd rfl apart

-- A query is what its aspects are.
theorem eq_of_look {q r : Query} (same : ∀ a, q.look a = r.look a) : q = r := by
  have tables := Prod.ext_iff.mp (same (.field .tables))
  have kind := same .kind
  have items := same (.field .select)
  have distinct := same (.field .distinct)
  have joinTrees := same (.field .joins)
  have whereTree := same (.field .where_)
  have groupBy := same (.field .groupBy)
  have havingTree := same (.field .having)
  have orderBy := same (.field .orderBy)
  have limit := same (.field .limit)
  have offset := same (.field .offset)
  have setOperations := same (.field .combine)
  have columns := same (.field .columns)
  have source := same (.field .source)
  have returning := same (.field .returning)
  have data := same (.field .data)
  have rows := same (.field .rows)
  have leading := same (.field .leading)
  have trailing := same (.field .trailing)
  cases q
  cases r
  simp only [look] at *
  simp only [*]

end Query

def Slot.aspect : Slot → Aspect
  | .where_ => .field .where_
  | .having => .field .having
  | .on _ => .field .joins

-- The fields that a call is about, whatever its arguments. A field name that is none is about nothing.
def Call.aspects : Call → List Aspect
  | .table .. | .listTable .. => [.field .tables]
  | .join .. => [.field .tables, .field .joins]
  | .addCondition slot _ _ => [slot.aspect]
  | .select .. | .selectAs .. => [.field .select]
  | .distinct .. => [.field .distinct]
  | .groupBy .. => [.field .groupBy]
  | .orderBy .. => [.field .orderBy]
  | .limit .. => [.field .limit]
  | .offset .. => [.field .offset]
  | .combine .. => [.field .combine]
  | .insert .. | .update .. | .delete .. | .truncate .. => [.kind, .field .tables]
  | .columns .. => [.field .columns]
  | .values .. => [.field .data]
  | .rows .. => [.field .rows]
  | .selectSource .. => [.field .source]
  | .returning .. | .returningAs .. => [.field .returning]
  | .leading .. => [.field .leading]
  | .trailing .. => [.field .trailing]
  | .reset name =>
      match Field.parse name with
      | .ok f => [.field f]
      | .error _ => []
  | .resetField f => [.field f]
  | .setQueryType .. => [.kind]

namespace Slot

def read : (slot : Slot) → slot.aspect.Content → Option Condition
  | .where_, tree => tree
  | .having, tree => tree
  | .on aliasName, trees => (trees.find? fun j => j.aliasName == aliasName).map JoinTree.tree

def write (c : Condition) : (slot : Slot) → slot.aspect.Content → slot.aspect.Content
  | .where_, _ => some c
  | .having, _ => some c
  | .on aliasName, trees => putJoinTree aliasName c trees

theorem read_look (slot : Slot) (q : Query) : q.tree? slot = slot.read (q.look slot.aspect) := by
  cases slot <;> rfl

theorem write_put (slot : Slot) (q : Query) (c : Condition) :
    q.putTree slot c = q.put slot.aspect (slot.write c (q.look slot.aspect)) := by
  cases slot <;> rfl

end Slot

namespace Change

-- Whether the change is refused, and what it puts in, follows from the one aspect.
def About (a : Aspect) (c : Change) : Prop :=
  ∃ g : a.Content → Except Error a.Content, ∀ q, c q = (g (q.look a)).map (q.put a)

theorem about_always {a : Aspect} {f : Query → Query} (g : a.Content → a.Content)
    (writes : ∀ q, f q = q.put a (g (q.look a))) : About a (always f) :=
  ⟨fun x => .ok (g x), fun q => congrArg Except.ok (writes q)⟩

-- A change that first makes something of its arguments, and puts that in.
theorem about_map {α : Type} {a : Aspect} {f : Query → α → Query} (made : Except Error α)
    (g : α → a.Content → a.Content) (writes : ∀ q x, f q x = q.put a (g x (q.look a))) :
    About a fun q => made.map (f q) := by
  refine ⟨fun x => made.map fun y => g y x, fun q => ?_⟩
  cases made with
  | error e => rfl
  | ok y => exact congrArg Except.ok (writes q y)

-- The next table, as the tables so far let it be.
theorem new_table_look (q r : Query) (same : q.look (.field .tables) = r.look (.field .tables)) (source : Value)
    (aliasName : Option String) (role : TableRole) :
    q.newTable source aliasName role = r.newTable source aliasName role := by
  obtain ⟨tables, main⟩ := Prod.ext_iff.mp same
  simp only [Query.look] at tables main
  simp only [Query.newTable, Query.table?, tables, main]

theorem about_add_table (source : Value) (aliasName : Option String) (role : TableRole) :
    About (.field .tables) (addTable source aliasName role) := by
  let blank := Query.empty .select
  refine ⟨fun x => (addTable source aliasName role (blank.put (.field .tables) x)).map fun q => q.look (.field .tables),
    fun q => ?_⟩
  have same := new_table_look (blank.put (.field .tables) (q.look (.field .tables))) q rfl source aliasName role
  simp only [addTable, same]
  cases q.newTable source aliasName role <;> rfl

theorem about_add_listed_table (source : Value) (aliasName : Option String) :
    About (.field .tables) (addListedTable source aliasName) := by
  obtain ⟨listed, asListed⟩ := about_add_table source aliasName .listed
  obtain ⟨main, asMain⟩ := about_add_table source aliasName .main
  refine ⟨fun x => if x.2.isSome then listed x else main x, fun q => ?_⟩
  simp only [addListedTable]
  cases known : q.main with
  | none => simpa [Query.look, known] using asMain q
  | some a => simpa [Query.look, known] using asListed q

theorem about_open_tree (slot : Slot) : About slot.aspect (openTree slot) := by
  refine about_always (fun x => slot.write ((slot.read x).getD (.empty .and)) x) fun q => ?_
  rw [Query.openTree, Query.tree, slot.read_look, slot.write_put]

theorem about_add_condition (slot : Slot) (cond : Cond) (params : List Value) :
    About slot.aspect (addCondition slot cond params) := by
  refine ⟨fun x => (((slot.read x).getD (.empty .and)).add cond params).map fun c => slot.write c x, fun q => ?_⟩
  simp only [addCondition, Query.tree, slot.read_look]
  cases ((slot.read (q.look slot.aspect)).getD (.empty .and)).add cond params with
  | error e => rfl
  | ok c => exact congrArg Except.ok (slot.write_put q c)

theorem about_combine (operator : SetOperator) (operand : Value) : About (.field .combine) (combine operator operand) := by
  cases operand with
  | fragment f => exact about_always (fun x => x ++ [⟨operator, .fragment f⟩]) fun _ => rfl
  | query r => exact about_always (fun x => x ++ [⟨operator, .query r⟩]) fun _ => rfl
  | _ =>
      exact ⟨fun _ => .error _, fun _ => rfl⟩

def emptied : (f : Field) → (Aspect.field f).Content
  | .select => []
  | .distinct => false
  | .tables => ([], none)
  | .joins => []
  | .where_ => none
  | .groupBy => []
  | .having => none
  | .orderBy => []
  | .limit => none
  | .offset => none
  | .combine => []
  | .columns => []
  | .source => none
  | .returning => []
  | .data => []
  | .rows => []
  | .leading => []
  | .trailing => []

theorem reset_put (q : Query) (f : Field) : q.reset f = q.put (.field f) (emptied f) := by
  cases f <;> rfl

end Change

-- Every change of a call is about one of the aspects that the call is about, but that of a field name
-- that is none, which no query accepts.
open Change in
theorem changes_about (call : Call) :
    ∀ c ∈ call.changes, (∃ a ∈ call.aspects, c.About a) ∨ ∃ e, c = fun _ => .error e := by
  have one {a : Aspect} {c : Change} (about : c.About a) :
      ∀ d ∈ [c], (∃ b ∈ [a], d.About b) ∨ ∃ e, d = fun _ => .error e :=
    List.forall_mem_singleton.mpr (.inl ⟨a, List.mem_singleton_self a, about⟩)
  have retarget (kind : QueryKind) (target : Value) : ∀ c ∈ Call.retarget kind target,
      (∃ a ∈ [Aspect.kind, .field .tables], c.About a) ∨ ∃ e, c = fun _ => .error e := by
    simp only [Call.retarget, List.forall_mem_cons, List.not_mem_nil]
    have set : (setKind kind).About .kind := about_always (fun _ => kind) fun _ => rfl
    exact ⟨.inl ⟨.kind, by simp, set⟩, .inl ⟨.field .tables, by simp, about_add_table target none .main⟩, nofun⟩
  cases call with
  | table source aliasName => exact one (about_add_table source aliasName .main)
  | listTable source aliasName => exact one (about_add_listed_table source aliasName)
  | join kind source aliasName on =>
      have table : ∃ a ∈ [Aspect.field .tables, .field .joins], (addTable source aliasName (.joined kind)).About a :=
        ⟨.field .tables, by simp, about_add_table source aliasName (.joined kind)⟩
      cases on with
      | none => exact List.forall_mem_singleton.mpr (.inl table)
      | some cond =>
          let slot := Slot.on (Call.joinAlias source aliasName)
          simp only [Call.changes, List.forall_mem_cons, List.not_mem_nil]
          exact ⟨.inl table, .inl ⟨.field .joins, by simp [Call.aspects], about_open_tree slot⟩,
            .inl ⟨.field .joins, by simp [Call.aspects], about_add_condition slot cond []⟩, nofun⟩
  | addCondition slot cond params =>
      simp only [Call.changes, List.forall_mem_cons, List.not_mem_nil]
      exact ⟨.inl ⟨_, by simp [Call.aspects], about_open_tree slot⟩,
        .inl ⟨_, by simp [Call.aspects], about_add_condition slot cond params⟩, nofun⟩
  | select exprs => exact one (about_always (fun x => x ++ exprs.map (SelectItem.mk none)) fun _ => rfl)
  | selectAs aliasName expr =>
      exact one (a := .field .select) (about_map (namedItem aliasName expr) (fun i x => x ++ [i]) fun _ _ => rfl)
  | distinct on => exact one (a := .field .distinct) (about_always (fun _ => on) fun _ => rfl)
  | groupBy exprs => exact one (a := .field .groupBy) (about_always (fun x => x ++ exprs) fun _ => rfl)
  | orderBy exprs => exact one (a := .field .orderBy) (about_always (fun x => x ++ exprs) fun _ => rfl)
  | limit n => exact one (a := .field .limit) (about_always (fun _ => some n) fun _ => rfl)
  | offset n => exact one (a := .field .offset) (about_always (fun _ => some n) fun _ => rfl)
  | combine operator operand => exact one (about_combine operator operand)
  | insert target | update target | delete target | truncate target => exact retarget _ target
  | columns names =>
      exact one (a := .field .columns) (about_map (checkColumns names) (fun names x => x ++ names) fun _ _ => rfl)
  | values cells =>
      exact one (a := .field .data)
        (about_map (DataRow.ofCells [] cells) (fun row x => DataRow.merge x row) fun _ _ => rfl)
  | rows lists =>
      exact one (a := .field .rows) (about_map (DataRow.ofLists lists) (fun rows x => x ++ rows) fun _ _ => rfl)
  | selectSource source => exact one (a := .field .source) (about_always (fun _ => some source) fun _ => rfl)
  | returning exprs =>
      exact one (a := .field .returning) (about_always (fun x => x ++ exprs.map (SelectItem.mk none)) fun _ => rfl)
  | returningAs aliasName expr =>
      exact one (a := .field .returning) (about_map (namedItem aliasName expr) (fun i x => x ++ [i]) fun _ _ => rfl)
  | leading f => exact one (a := .field .leading) (about_always (fun x => x ++ [f]) fun _ => rfl)
  | trailing f => exact one (a := .field .trailing) (about_always (fun x => x ++ [f]) fun _ => rfl)
  | reset name =>
      simp only [Call.changes, Call.aspects, List.forall_mem_singleton]
      cases Field.parse name with
      | error e => exact .inr ⟨e, rfl⟩
      | ok f =>
          have about : (always fun q => q.reset f).About (.field f) :=
            about_always (fun _ => emptied f) fun q => reset_put q f
          exact .inl ⟨.field f, List.mem_singleton_self _, about⟩
  | resetField f => exact one (about_always (fun _ => emptied f) fun q => reset_put q f)
  | setQueryType name => exact one (a := .kind) (about_map (QueryKind.parse name) (fun kind _ => kind) fun _ _ => rfl)

end QueryBuilder

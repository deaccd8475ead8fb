import QueryBuilder.Query.Statement

/-!
The parameters of a statement are parts of its query.

Main statement: every parameter of `q.toFragment` is smaller than `q`, so that a walk which goes
from a sub-query to the parameters of its statement ends.
-/

set_option autoImplicit false

namespace QueryBuilder

namespace Fragment

def Below (n : Nat) (f : Fragment) : Prop :=
  ∀ v ∈ f.params, sizeOf v < n

theorem Below.mono {m n : Nat} {f : Fragment} (h : f.Below m) (le : m ≤ n) : f.Below n :=
  fun v member => Nat.lt_of_lt_of_le (h v member) le

theorem below_ofText (n : Nat) (text : String) : (ofText text).Below n := by
  intro v member
  simp [ofText] at member

theorem below_empty (n : Nat) : empty.Below n := below_ofText n ""

theorem below_literal (n : Nat) (text : String) : (literal text).Below n := below_ofText n _

theorem below_ident (n : Nat) (i : Ident) : (ident i).Below n := below_ofText n _

theorem below_hole {n : Nat} {v : Value} (h : sizeOf v < n) : (hole v).Below n := by
  intro w member
  have same : w = v := by simpa [hole] using member
  simpa [same] using h

theorem append_params (f g : Fragment) : (f ++ g).params = f.params ++ g.params := rfl

theorem below_append {n : Nat} {f g : Fragment} (hf : f.Below n) (hg : g.Below n) : (f ++ g).Below n := by
  intro v member
  rw [append_params, List.mem_append] at member
  exact member.elim (hf v) (hg v)

theorem below_untagged {n : Nat} {f : Fragment} (h : f.Below n) : f.untagged.Below n := h

theorem below_concat {n : Nat} {fs : List Fragment} (h : ∀ f ∈ fs, f.Below n) : (concat fs).Below n := by
  induction fs with
  | nil => exact below_empty n
  | cons f rest ih =>
      exact below_append (h f (by simp)) (ih fun g member => h g (by simp [member]))

theorem below_joinWith {n : Nat} (sep : String) {fs : List Fragment} (h : ∀ f ∈ fs, f.Below n) :
    (joinWith sep fs).Below n := by
  fun_induction joinWith sep fs with
  | case1 => exact below_empty n
  | case2 f => exact h f (by simp)
  | case3 f rest _ ih =>
      exact below_append (below_append (h f (by simp)) (below_literal n sep))
        (ih fun g member => h g (List.mem_cons_of_mem _ member))

end Fragment

def BelowResult (n : Nat) (r : Except Error Fragment) : Prop :=
  ∀ f, r = .ok f → f.Below n

theorem belowResult_ok {n : Nat} {f : Fragment} (h : f.Below n) : BelowResult n (.ok f) := by
  intro g same
  cases same
  exact h

theorem belowResult_error (n : Nat) (e : Error) : BelowResult n (.error e) := by
  intro g same
  cases same

theorem belowResult_map {n : Nat} {α : Type} {r : Except Error α} {g : α → Fragment}
    (h : ∀ a, r = .ok a → (g a).Below n) : BelowResult n (r.map g) := by
  cases r with
  | error e => exact belowResult_error n e
  | ok a => exact belowResult_ok (h a rfl)

theorem belowResult_clauses {n : Nat} {rs : List (Except Error Fragment)} (h : ∀ r ∈ rs, BelowResult n r) :
    BelowResult n (clauses rs) := by
  induction rs with
  | nil => exact belowResult_ok (Fragment.below_empty n)
  | cons r rest ih =>
      cases r with
      | error e => exact belowResult_error n e
      | ok f =>
          refine belowResult_map fun g eq => ?_
          exact Fragment.below_append (h (.ok f) (by simp) f rfl)
            (ih (fun s member => h s (List.mem_cons_of_mem _ member)) g eq)

theorem below_parenthesized {n : Nat} {f : Fragment} (h : f.Below n) : (parenthesized f).Below n :=
  Fragment.below_append (Fragment.below_append (Fragment.below_literal n _) h) (Fragment.below_literal n _)

theorem below_leafFragment {text : String} {params : List Value} {f : Fragment}
    (h : leafFragment text params = .ok f) : ∀ v ∈ f.params, v ∈ params := by
  intro v member
  unfold leafFragment at h
  split at h
  · cases h
    exact member
  · split at h
    · split at h
      · cases h
        split at member
        · exact member
        · split at member
          · simp at member
          · exact member
      · cases h
    · cases h

mutual
theorem Node.below_emit (wrap : Bool) (node : Node) (f : Fragment) (h : node.emit wrap = .ok f) :
    f.Below (sizeOf node) := by
  match node with
  | .leaf text params =>
      rw [Node.emit] at h
      cases leaf : leafFragment text params with
      | error e => rw [leaf] at h; cases h
      | ok g =>
          rw [leaf] at h
          cases h
          have kept : g.Below (sizeOf (Node.leaf text params)) := by
            intro v member
            have lt := List.sizeOf_lt_of_mem (below_leafFragment leaf v member)
            simp only [Node.leaf.sizeOf_spec]
            omega
          cases wrap
          · exact kept
          · exact below_parenthesized kept
  | .branch c =>
      rw [Node.emit] at h
      refine (c.below_emit wrap f h).mono ?_
      simp

theorem Condition.below_emit (wrap : Bool) (c : Condition) (f : Fragment) (h : c.emit wrap = .ok f) :
    f.Below (sizeOf c) := by
  match c with
  | ⟨combinator, children⟩ =>
      rw [Condition.emit] at h
      cases parts : emitSolid (wrap || decide (1 < solidCount children)) children with
      | error e => rw [parts] at h; cases h
      | ok fs =>
          rw [parts] at h
          cases h
          have each := below_emitSolid (wrap || decide (1 < solidCount children)) children fs parts
          have joined : (Fragment.joinWith (" " ++ combinator.keyword ++ " ") fs).Below
              (sizeOf (Condition.mk combinator children)) := by
            refine Fragment.below_joinWith _ fun g member => (each g member).mono ?_
            simp
          dsimp only
          split
          · exact below_parenthesized joined
          · exact joined

theorem below_emitSolid (wrap : Bool) (nodes : List Node) (fs : List Fragment) (h : emitSolid wrap nodes = .ok fs) :
    ∀ f ∈ fs, f.Below (sizeOf nodes) := by
  match nodes with
  | [] =>
      rw [emitSolid] at h
      cases h
      simp
  | n :: ns =>
      rw [emitSolid] at h
      split at h
      · intro f member
        refine (below_emitSolid wrap ns fs h f member).mono ?_
        simp
      · cases first : n.emit wrap with
        | error e => simp [first] at h
        | ok g =>
            simp only [first] at h
            cases rest : emitSolid wrap ns with
            | error e => rw [rest] at h; cases h
            | ok gs =>
                rw [rest] at h
                cases h
                intro f member
                rcases List.mem_cons.mp member with rfl | tail
                · refine (n.below_emit wrap f first).mono ?_
                  simp only [List.cons.sizeOf_spec]
                  omega
                · refine (below_emitSolid wrap ns gs rest f tail).mono ?_
                  simp
end

theorem Condition.below_toFragment (c : Condition) : BelowResult (sizeOf c) c.toFragment :=
  fun f h => c.below_emit false f h

theorem below_conditionClause {n : Nat} (keyword : String) (tree : Option Condition) (h : sizeOf tree ≤ n) :
    BelowResult n (conditionClause keyword tree) := by
  unfold conditionClause
  split
  · exact belowResult_ok (Fragment.below_empty n)
  · rename_i c
    split
    · exact belowResult_ok (Fragment.below_empty n)
    · refine belowResult_map fun f eq => Fragment.below_append (Fragment.below_literal n _) ?_
      refine (c.below_toFragment f eq).mono ?_
      simp only [Option.some.sizeOf_spec] at h
      omega

theorem below_valueFragment {n : Nat} {v : Value} (h : sizeOf v < n) : (valueFragment v).Below n := by
  unfold valueFragment
  split
  · exact Fragment.below_literal n _
  · exact Fragment.below_literal n _
  · exact Fragment.below_append (Fragment.below_append (Fragment.below_literal n _) (Fragment.below_hole h))
      (Fragment.below_literal n _)
  · exact Fragment.below_hole h

theorem Expr.below_fragment {n : Nat} (e : Expr) (h : sizeOf e ≤ n) : e.fragment.Below n := by
  cases e with
  | raw text => exact Fragment.below_literal n _
  | value v =>
      refine below_valueFragment ?_
      simp only [Expr.value.sizeOf_spec] at h
      omega

theorem SelectItem.below_fragment {n : Nat} (item : SelectItem) (h : sizeOf item ≤ n) :
    BelowResult n item.fragment := by
  have inner : sizeOf item.expr ≤ n := by
    cases item
    simp only [SelectItem.mk.sizeOf_spec] at h ⊢
    omega
  unfold SelectItem.fragment
  split
  · exact belowResult_ok (item.expr.below_fragment inner)
  · refine belowResult_map fun i _ => ?_
    exact Fragment.below_append (Fragment.below_append (item.expr.below_fragment inner) (Fragment.below_literal n _))
      (Fragment.below_ident n i)

theorem below_itemList {n : Nat} (items : List SelectItem) (h : sizeOf items ≤ n) (fs : List Fragment)
    (ok : itemList items = .ok fs) : ∀ f ∈ fs, f.Below n := by
  induction items generalizing fs with
  | nil =>
      cases ok
      simp
  | cons item rest ih =>
      simp only [List.cons.sizeOf_spec] at h
      rw [itemList] at ok
      cases first : item.fragment with
      | error e => simp [first] at ok
      | ok g =>
          simp only [first] at ok
          cases tail : itemList rest with
          | error e => rw [tail] at ok; cases ok
          | ok gs =>
              rw [tail] at ok
              cases ok
              intro f member
              rcases List.mem_cons.mp member with rfl | inner
              · exact item.below_fragment (by omega) f first
              · exact ih (by omega) gs tail f inner

theorem below_itemsFragment {n : Nat} (items : List SelectItem) (h : sizeOf items ≤ n) :
    BelowResult n (itemsFragment items) :=
  belowResult_map fun fs ok => Fragment.below_joinWith _ (below_itemList items h fs ok)

theorem below_exprsClause {n : Nat} (keyword : String) (exprs : List Expr) (h : sizeOf exprs ≤ n) :
    (exprsClause keyword exprs).Below n := by
  unfold exprsClause
  split
  · exact Fragment.below_empty n
  · refine Fragment.below_append (Fragment.below_literal n _) (Fragment.below_joinWith _ ?_)
    intro f member
    obtain ⟨e, inside, rfl⟩ := List.mem_map.mp member
    have lt := List.sizeOf_lt_of_mem inside
    exact e.below_fragment (by omega)

theorem Table.below_fragment {n : Nat} (t : Table) (h : sizeOf t ≤ n) : t.fragment.Below n := by
  obtain ⟨aliasName, source, role⟩ := t
  simp only [Table.mk.sizeOf_spec] at h
  have named : (Fragment.literal " AS " ++ Fragment.literal aliasName).Below n :=
    Fragment.below_append (Fragment.below_literal n _) (Fragment.below_literal n _)
  cases source with
  | name name =>
      simp only [Table.fragment]
      split
      · exact Fragment.below_literal n _
      · exact Fragment.below_append (Fragment.below_literal n _) named
  | fragment f =>
      refine Fragment.below_append (Fragment.below_hole ?_) named
      simp only [TableSource.fragment.sizeOf_spec, Value.fragment.sizeOf_spec] at h ⊢
      omega
  | query q =>
      refine Fragment.below_append (Fragment.below_append (Fragment.below_append (Fragment.below_literal n _)
        (Fragment.below_hole ?_)) (Fragment.below_literal n _)) named
      simp only [TableSource.query.sizeOf_spec, Value.query.sizeOf_spec] at h ⊢
      omega

theorem Table.below_target {n : Nat} (t : Table) (h : sizeOf t ≤ n) : t.target.Below n := by
  unfold Table.target
  split
  · exact Fragment.below_literal n _
  · exact t.below_fragment h

theorem DataRow.sizeOf_get {row : DataRow} {column : String} {v : Value} (h : DataRow.get? row column = some v) :
    sizeOf v < sizeOf row := by
  obtain ⟨c, found, rfl⟩ := Option.map_eq_some_iff.mp h
  have lt := List.sizeOf_lt_of_mem (List.mem_of_find?_eq_some found)
  cases c
  simp only [Cell.mk.sizeOf_spec] at lt ⊢
  omega

theorem DataRow.below_tuple {n : Nat} (names : List String) (row : DataRow) (h : sizeOf row ≤ n) :
    (DataRow.tuple names row).Below n := by
  refine below_parenthesized (Fragment.below_joinWith _ ?_)
  intro f member
  obtain ⟨name, _, rfl⟩ := List.mem_map.mp member
  split
  · rename_i v found
    exact below_valueFragment (Nat.lt_of_lt_of_le (DataRow.sizeOf_get found) h)
  · exact Fragment.below_literal n _

theorem below_columnList (n : Nat) (columns : List Ident) : (columnList columns).Below n := by
  unfold columnList
  split
  · exact Fragment.below_empty n
  · refine below_parenthesized (Fragment.below_joinWith _ ?_)
    intro f member
    obtain ⟨i, _, rfl⟩ := List.mem_map.mp member
    exact Fragment.below_ident n i

theorem below_assignments {n : Nat} (row : DataRow) (h : sizeOf row ≤ n) (fs : List Fragment)
    (ok : Query.assignments row = .ok fs) : ∀ f ∈ fs, f.Below n := by
  induction row generalizing fs with
  | nil =>
      cases ok
      simp
  | cons c rest ih =>
      simp only [List.cons.sizeOf_spec] at h
      rw [Query.assignments] at ok
      cases first : Query.assignment c with
      | error e => simp [first] at ok
      | ok g =>
          simp only [first] at ok
          cases tail : Query.assignments rest with
          | error e => rw [tail] at ok; cases ok
          | ok gs =>
              rw [tail] at ok
              cases ok
              intro f member
              rcases List.mem_cons.mp member with rfl | inner
              · have below : BelowResult n (Query.assignment c) := by
                  refine belowResult_map fun i _ => Fragment.below_append (Fragment.below_append
                    (Fragment.below_ident n i) (Fragment.below_literal n _)) (below_valueFragment ?_)
                  cases c
                  simp only [Cell.mk.sizeOf_spec] at h ⊢
                  omega
                exact below f first
              · exact ih (by omega) gs tail f inner

namespace Query

theorem sizeOf_fields (q : Query) :
    sizeOf q.items < sizeOf q ∧ sizeOf q.tables < sizeOf q ∧ sizeOf q.joinTrees < sizeOf q
      ∧ sizeOf q.whereTree < sizeOf q ∧ sizeOf q.groupBy < sizeOf q ∧ sizeOf q.havingTree < sizeOf q
      ∧ sizeOf q.orderBy < sizeOf q ∧ sizeOf q.limit < sizeOf q ∧ sizeOf q.offset < sizeOf q
      ∧ sizeOf q.setOperations < sizeOf q ∧ sizeOf q.source < sizeOf q ∧ sizeOf q.returning < sizeOf q
      ∧ sizeOf q.data < sizeOf q ∧ sizeOf q.rows < sizeOf q ∧ sizeOf q.leading < sizeOf q
      ∧ sizeOf q.trailing < sizeOf q := by
  cases q
  simp only [Query.mk.sizeOf_spec]
  omega

theorem mem_tables_of_main {q : Query} {t : Table} (h : q.mainTable? = some t) : t ∈ q.tables := by
  unfold mainTable? at h
  cases main : q.main with
  | none => simp [main] at h
  | some aliasName =>
      simp only [main, Option.bind_some] at h
      exact List.mem_of_find?_eq_some h

theorem below_withMain {q : Query} {n : Nat} {statement : Table → Except Error Fragment}
    (h : ∀ t ∈ q.tables, BelowResult n (statement t)) : BelowResult n (q.withMain statement) := by
  unfold withMain
  split
  · rename_i t found
    exact h t (mem_tables_of_main found)
  · exact belowResult_error n _

theorem below_table {q : Query} {t : Table} (h : t ∈ q.tables) : t.fragment.Below (sizeOf q) := by
  have lt := List.sizeOf_lt_of_mem h
  have fields := q.sizeOf_fields
  exact t.below_fragment (by omega)

theorem below_target {q : Query} {t : Table} (h : t ∈ q.tables) : t.target.Below (sizeOf q) := by
  have lt := List.sizeOf_lt_of_mem h
  have fields := q.sizeOf_fields
  exact t.below_target (by omega)

theorem mem_tables_of_listed {q : Query} {t : Table} (h : t ∈ q.listedTables) : t ∈ q.tables :=
  (List.mem_filter.mp h).1

theorem sizeOf_mem_fragments {fs : List Fragment} {f : Fragment} {n : Nat} (h : f ∈ fs) (le : sizeOf fs ≤ n) :
    f.Below n := by
  intro v member
  have inner := List.sizeOf_lt_of_mem member
  have outer := List.sizeOf_lt_of_mem h
  cases f
  simp only [Fragment.mk.sizeOf_spec] at outer inner
  omega

theorem below_leadingClause (q : Query) : q.leadingClause.Below (sizeOf q) := by
  refine Fragment.below_concat fun f member => ?_
  obtain ⟨g, inside, rfl⟩ := List.mem_map.mp member
  have fields := q.sizeOf_fields
  exact Fragment.below_append (Fragment.below_untagged (sizeOf_mem_fragments inside (by omega)))
    (Fragment.below_literal _ _)

theorem below_trailingClause (q : Query) : q.trailingClause.Below (sizeOf q) := by
  refine Fragment.below_concat fun f member => ?_
  obtain ⟨g, inside, rfl⟩ := List.mem_map.mp member
  have fields := q.sizeOf_fields
  exact Fragment.below_append (Fragment.below_literal _ _)
    (Fragment.below_untagged (sizeOf_mem_fragments inside (by omega)))

theorem below_joinTree {q : Query} {aliasName : String} {c : Condition} (h : q.joinTree? aliasName = some c) :
    sizeOf (some c) ≤ sizeOf q := by
  obtain ⟨j, found, rfl⟩ := Option.map_eq_some_iff.mp h
  have lt := List.sizeOf_lt_of_mem (List.mem_of_find?_eq_some found)
  have fields := q.sizeOf_fields
  cases j
  simp only [JoinTree.mk.sizeOf_spec, Option.some.sizeOf_spec] at lt ⊢
  omega

theorem below_onClause (q : Query) (kind : JoinKind) (aliasName : String) :
    BelowResult (sizeOf q) (q.onClause kind aliasName) := by
  unfold onClause
  split
  · exact belowResult_ok (Fragment.below_empty _)
  · split
    · exact belowResult_error _ _
    · rename_i c found
      split
      · exact belowResult_error _ _
      · exact below_conditionClause _ _ (below_joinTree found)

theorem below_joinClause {q : Query} {t : Table} (h : t ∈ q.tables) : BelowResult (sizeOf q) (q.joinClause t) := by
  unfold joinClause
  split
  · refine belowResult_map fun on ok => ?_
    exact Fragment.below_append (Fragment.below_append (Fragment.below_append (Fragment.below_append
      (Fragment.below_literal _ _) (Fragment.below_literal _ _)) (Fragment.below_literal _ _)) (below_table h))
      (q.below_onClause _ _ on ok)
  · exact belowResult_ok (Fragment.below_empty _)

theorem below_joinsClause (q : Query) : BelowResult (sizeOf q) q.joinsClause := by
  refine belowResult_clauses fun r member => ?_
  obtain ⟨t, inside, rfl⟩ := List.mem_map.mp member
  exact below_joinClause inside

theorem below_fromClause (q : Query) : BelowResult (sizeOf q) q.fromClause := by
  unfold fromClause
  split
  · exact belowResult_ok (Fragment.below_empty _)
  · refine below_withMain fun t member => belowResult_clauses fun r choice => ?_
    simp only [List.mem_cons, List.not_mem_nil, or_false] at choice
    rcases choice with rfl | rfl
    · refine belowResult_ok (Fragment.below_append (Fragment.below_append (Fragment.below_literal _ _)
        (below_table member)) (Fragment.below_concat fun f inside => ?_))
      obtain ⟨l, listed, rfl⟩ := List.mem_map.mp inside
      exact Fragment.below_append (Fragment.below_literal _ _) (below_table (mem_tables_of_listed listed))
    · exact q.below_joinsClause

theorem below_limitClause (q : Query) : q.limitClause.Below (sizeOf q) := by
  have fields := q.sizeOf_fields
  unfold limitClause
  split
  · rename_i n found
    refine Fragment.below_append (Fragment.below_literal _ _) (Fragment.below_hole ?_)
    simp only [found, Option.some.sizeOf_spec] at fields
    simp only [Value.int.sizeOf_spec]
    omega
  · exact Fragment.below_empty _

theorem below_offsetClause (q : Query) : q.offsetClause.Below (sizeOf q) := by
  have fields := q.sizeOf_fields
  unfold offsetClause
  split
  · rename_i n found
    refine Fragment.below_append (Fragment.below_literal _ _) (Fragment.below_hole ?_)
    simp only [found, Option.some.sizeOf_spec] at fields
    simp only [Value.int.sizeOf_spec]
    omega
  · exact Fragment.below_empty _

theorem below_setOperationsClause (q : Query) : q.setOperationsClause.Below (sizeOf q) := by
  have fields := q.sizeOf_fields
  refine Fragment.below_concat fun f member => ?_
  obtain ⟨s, inside, rfl⟩ := List.mem_map.mp member
  have lt := List.sizeOf_lt_of_mem inside
  refine Fragment.below_append (Fragment.below_append (Fragment.below_append (Fragment.below_append
    (Fragment.below_literal _ _) (Fragment.below_literal _ _)) (Fragment.below_literal _ _))
    (Fragment.below_hole ?_)) (Fragment.below_literal _ _)
  cases s
  simp only [SetOperation.mk.sizeOf_spec] at lt ⊢
  omega

theorem below_returningClause (q : Query) : BelowResult (sizeOf q) q.returningClause := by
  have fields := q.sizeOf_fields
  unfold returningClause
  split
  · exact belowResult_ok (Fragment.below_empty _)
  · refine belowResult_map fun f ok => Fragment.below_append (Fragment.below_literal _ _) ?_
    exact below_itemsFragment q.returning (by omega) f ok

theorem below_selectStatement (q : Query) : BelowResult (sizeOf q) q.selectStatement := by
  have fields := q.sizeOf_fields
  unfold selectStatement
  split
  · exact belowResult_error _ _
  · refine belowResult_clauses fun r choice => ?_
    simp only [List.mem_cons, List.not_mem_nil, or_false] at choice
    rcases choice with rfl | rfl | rfl | rfl | rfl | rfl | rfl | rfl | rfl | rfl | rfl | rfl
    · exact belowResult_ok q.below_leadingClause
    · exact belowResult_ok (Fragment.below_literal _ _)
    · exact below_itemsFragment _ (by omega)
    · exact q.below_fromClause
    · exact below_conditionClause _ _ (by omega)
    · exact belowResult_ok (below_exprsClause _ _ (by omega))
    · exact below_conditionClause _ _ (by omega)
    · exact belowResult_ok (below_exprsClause _ _ (by omega))
    · exact belowResult_ok q.below_limitClause
    · exact belowResult_ok q.below_offsetClause
    · exact belowResult_ok q.below_setOperationsClause
    · exact belowResult_ok q.below_trailingClause

theorem sizeOf_rowsToInsert {q : Query} {row : DataRow} (h : row ∈ q.rowsToInsert) : sizeOf row < sizeOf q := by
  have fields := q.sizeOf_fields
  have member := (List.mem_filter.mp h).1
  rcases List.mem_cons.mp member with rfl | inside
  · omega
  · have lt := List.sizeOf_lt_of_mem inside
    omega

theorem below_insertedClause (q : Query) (table : Table) (sourceText : Option (Except Error Fragment))
    (h : ∀ r, sourceText = some r → BelowResult (sizeOf q) r) :
    BelowResult (sizeOf q) (q.insertedClause table sourceText) := by
  unfold insertedClause
  split
  · refine belowResult_clauses fun r choice => ?_
    simp only [List.mem_cons, List.not_mem_nil, or_false] at choice
    rcases choice with rfl | rfl | rfl
    · exact belowResult_map fun columns _ => below_columnList _ columns
    · exact belowResult_ok (Fragment.below_literal _ _)
    · exact belowResult_map fun f ok => Fragment.below_untagged (h _ rfl f ok)
  · split
    · exact belowResult_error _ _
    · refine belowResult_clauses fun r choice => ?_
      simp only [List.mem_cons, List.not_mem_nil, or_false] at choice
      rcases choice with rfl | rfl
      · exact belowResult_map fun columns _ => below_columnList _ columns
      · refine belowResult_ok (Fragment.below_append (Fragment.below_literal _ _)
          (Fragment.below_joinWith _ fun f inside => ?_))
        obtain ⟨row, chosen, rfl⟩ := List.mem_map.mp inside
        exact DataRow.below_tuple _ row (Nat.le_of_lt (sizeOf_rowsToInsert chosen))

theorem below_insertStatement (q : Query) (sourceText : Option (Except Error Fragment))
    (h : ∀ r, sourceText = some r → BelowResult (sizeOf q) r) :
    BelowResult (sizeOf q) (q.insertStatement sourceText) := by
  refine below_withMain fun t member => belowResult_clauses fun r choice => ?_
  simp only [List.mem_cons, List.not_mem_nil, or_false] at choice
  rcases choice with rfl | rfl | rfl | rfl
  · exact belowResult_ok (Fragment.below_append (Fragment.below_append q.below_leadingClause
      (Fragment.below_literal _ _)) (below_target member))
  · exact q.below_insertedClause t sourceText h
  · exact belowResult_ok q.below_trailingClause
  · exact q.below_returningClause

theorem below_updateFromClause (q : Query) (table : Table) : BelowResult (sizeOf q) (q.updateFromClause table) := by
  unfold updateFromClause
  split
  · split
    · exact belowResult_error _ _
    · exact belowResult_ok (Fragment.below_empty _)
  · refine belowResult_ok (Fragment.below_append (Fragment.below_literal _ _)
      (Fragment.below_joinWith _ fun f inside => ?_))
    obtain ⟨t, listed, rfl⟩ := List.mem_map.mp inside
    exact below_table (mem_tables_of_listed listed)

theorem below_updateStatement (q : Query) : BelowResult (sizeOf q) q.updateStatement := by
  have fields := q.sizeOf_fields
  refine below_withMain fun t member => ?_
  split
  · exact belowResult_error _ _
  · refine belowResult_clauses fun r choice => ?_
    simp only [List.mem_cons, List.not_mem_nil, or_false] at choice
    rcases choice with rfl | rfl | rfl | rfl | rfl | rfl | rfl
    · exact belowResult_ok (Fragment.below_append (Fragment.below_append (Fragment.below_append
        q.below_leadingClause (Fragment.below_literal _ _)) (below_table member)) (Fragment.below_literal _ _))
    · exact belowResult_map fun fs ok => Fragment.below_joinWith _
        (below_assignments q.data (by omega) fs ok)
    · exact q.below_updateFromClause t
    · exact q.below_joinsClause
    · exact below_conditionClause _ _ (by omega)
    · exact belowResult_ok q.below_trailingClause
    · exact q.below_returningClause

theorem below_deleteStatement (q : Query) : BelowResult (sizeOf q) q.deleteStatement := by
  have fields := q.sizeOf_fields
  refine below_withMain fun t member => belowResult_clauses fun r choice => ?_
  simp only [List.mem_cons, List.not_mem_nil, or_false] at choice
  rcases choice with rfl | rfl | rfl | rfl
  · exact belowResult_ok (Fragment.below_append (Fragment.below_append q.below_leadingClause
      (Fragment.below_literal _ _)) (below_table member))
  · exact below_conditionClause _ _ (by omega)
  · exact belowResult_ok q.below_trailingClause
  · exact q.below_returningClause

theorem below_truncateStatement (q : Query) : BelowResult (sizeOf q) q.truncateStatement :=
  below_withMain fun _ member => belowResult_ok (Fragment.below_append (Fragment.below_append
    (Fragment.below_literal _ _) (below_target member)) q.below_trailingClause)

theorem below_toFragment (q : Query) : BelowResult (sizeOf q) q.toFragment := by
  rw [toFragment_eq]
  unfold statement
  split
  · exact q.below_selectStatement
  · refine q.below_insertStatement _ fun r some => ?_
    obtain ⟨source, found, rfl⟩ := Option.map_eq_some_iff.mp some
    have fields := q.sizeOf_fields
    simp only [found, Option.some.sizeOf_spec] at fields
    exact fun f ok => (below_toFragment source f ok).mono (by omega)
  · exact q.below_updateStatement
  · exact q.below_deleteStatement
  · exact q.below_truncateStatement
termination_by sizeOf q
decreasing_by
  have fields := q.sizeOf_fields
  simp only [found, Option.some.sizeOf_spec] at fields
  omega

end Query

end QueryBuilder

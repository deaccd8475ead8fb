import QueryBuilder.Proofs.NumberingSteps
import QueryBuilder.Proofs.Parenthesization
import QueryBuilder.Proofs.Refusals

/-!
The WHERE clause of a statement.

Main statement: whatever was called on a query and edited in its trees, a SELECT, UPDATE or DELETE
that compiles is what it is without conditions, with ` WHERE ` and the text of the tree put in at one
place exactly when the tree has a leaf at some depth. A statement is for this one flat list of clauses,
in which nothing but one clause looks at the tree.
-/

set_option autoImplicit false

namespace QueryBuilder

theorem clauses_append (rs ss : List (Except Error Fragment)) :
    clauses (rs ++ ss) = (clauses rs).bind fun f => (clauses ss).map fun g => f ++ g := by
  induction rs with
  | nil =>
      change clauses ss = (clauses ss).map fun g => Fragment.empty ++ g
      cases clauses ss with
      | error e => rfl
      | ok g => exact congrArg Except.ok (empty_append g).symm
  | cons r rs ih =>
      rw [List.cons_append, clauses_cons, clauses_cons, ih]
      cases r with
      | error e => rfl
      | ok f =>
          cases clauses rs with
          | error e => rfl
          | ok g =>
              cases clauses ss with
              | error e => rfl
              | ok h => exact congrArg Except.ok (append_assoc f g h).symm

theorem clauses_flat (rs ss : List (Except Error Fragment)) : clauses (clauses rs :: ss) = clauses (rs ++ ss) := by
  rw [clauses_append, clauses_cons]

theorem clauses_behind (rs : List (Except Error Fragment)) {ss ts : List (Except Error Fragment)}
    (same : clauses ss = clauses ts) : clauses (rs ++ ss) = clauses (rs ++ ts) := by
  rw [clauses_append, clauses_append, same]

theorem clauses_append_ok {rs ss : List (Except Error Fragment)} {f : Fragment} (made : clauses (rs ++ ss) = .ok f) :
    ∃ g h, clauses rs = .ok g ∧ clauses ss = .ok h ∧ f = g ++ h := by
  rw [← clauses_flat] at made
  exact clauses_cons_ok made

-- The kinds of statement that have a WHERE clause.
def QueryKind.filters : QueryKind → Bool
  | .select | .update | .delete => true
  | .insert | .truncate => false

namespace Query

def fromList (q : Query) : Except Error Fragment :=
  if q.tables.isEmpty then .ok .empty
  else
    q.withMain fun t =>
      .ok (.literal " FROM " ++ t.fragment ++ .concat (q.listedTables.map fun l => .literal ", " ++ l.fragment))

-- The clauses in front of the joins. The first one fails when the statement lacks what it is about.
def beforeJoins (q : Query) : List (Except Error Fragment) :=
  match q.kind with
  | .select => [
      if q.items.isEmpty then .error .noColumnsToSelect else .ok q.leadingClause,
      .ok (.literal (if q.distinct then "SELECT DISTINCT " else "SELECT ")),
      itemsFragment q.items,
      q.fromList]
  | .update => [
      q.withMain fun t =>
        if q.data.isEmpty then .error (.noDataToUpdate t.aliasName)
        else .ok (q.leadingClause ++ .literal "UPDATE " ++ t.fragment ++ .literal " SET "),
      (assignments q.data).map (.joinWith ", "),
      q.withMain q.updateFromClause]
  | .delete => [q.withMain fun t => .ok (q.leadingClause ++ .literal "DELETE FROM " ++ t.fragment)]
  | .insert | .truncate => []

-- A DELETE writes no joins.
def joinClauses (q : Query) : List (Except Error Fragment) :=
  match q.kind with
  | .select | .update => q.tables.map q.joinClause
  | .delete | .insert | .truncate => []

def beforeWhere (q : Query) : List (Except Error Fragment) :=
  q.beforeJoins ++ q.joinClauses

def beforeHaving (q : Query) : List (Except Error Fragment) :=
  q.beforeWhere ++ [conditionClause " WHERE " q.whereTree, .ok (exprsClause " GROUP BY " q.groupBy)]

def behindHaving (q : Query) : List (Except Error Fragment) :=
  [.ok (exprsClause " ORDER BY " q.orderBy), .ok q.limitClause, .ok q.offsetClause, .ok q.setOperationsClause,
    .ok q.trailingClause]

def behindWhere (q : Query) : List (Except Error Fragment) :=
  match q.kind with
  | .select => .ok (exprsClause " GROUP BY " q.groupBy) :: conditionClause " HAVING " q.havingTree :: q.behindHaving
  | .update | .delete => [.ok q.trailingClause, q.returningClause]
  | .insert | .truncate => []

theorem joins_flat (q : Query) (rest : List (Except Error Fragment)) :
    clauses (q.joinsClause :: rest) = clauses (q.tables.map q.joinClause ++ rest) :=
  clauses_flat (q.tables.map q.joinClause) rest

theorem from_flat (q : Query) (rest : List (Except Error Fragment)) :
    clauses (q.fromClause :: rest) = clauses (q.fromList :: (q.tables.map q.joinClause ++ rest)) := by
  rw [fromClause, fromList]
  by_cases none : q.tables.isEmpty
  · rw [if_pos none, if_pos none, List.isEmpty_iff.mp none]
    rfl
  · rw [if_neg none, if_neg none, withMain, withMain]
    cases q.mainTable? with
    | none => rfl
    | some t =>
        apply (clauses_flat [.ok _, q.joinsClause] rest).trans
        exact clauses_behind [.ok _] (joins_flat q rest)

theorem select_flat {q : Query} (select : q.kind = .select) :
    q.selectStatement = clauses (q.beforeWhere ++ conditionClause " WHERE " q.whereTree :: q.behindWhere) := by
  simp only [selectStatement, beforeWhere, beforeJoins, joinClauses, behindWhere, behindHaving, select]
  by_cases none : q.items.isEmpty
  · rw [if_pos none, if_pos none]
    rfl
  · rw [if_neg none, if_neg none]
    exact clauses_behind [.ok _, .ok _, itemsFragment q.items] (from_flat q _)

-- A statement without main table fails with its first clause.
theorem update_flat {q : Query} (update : q.kind = .update) :
    q.updateStatement = clauses (q.beforeWhere ++ conditionClause " WHERE " q.whereTree :: q.behindWhere) := by
  simp only [updateStatement, beforeWhere, beforeJoins, joinClauses, behindWhere, update, withMain]
  cases q.mainTable? with
  | none => rfl
  | some t =>
      simp only
      by_cases none : q.data.isEmpty
      · rw [if_pos none, if_pos none]
        rfl
      · rw [if_neg none, if_neg none]
        exact clauses_behind [.ok _, (assignments q.data).map _, q.updateFromClause t] (joins_flat q _)

theorem delete_flat {q : Query} (delete : q.kind = .delete) :
    q.deleteStatement = clauses (q.beforeWhere ++ conditionClause " WHERE " q.whereTree :: q.behindWhere) := by
  simp only [deleteStatement, beforeWhere, beforeJoins, joinClauses, behindWhere, delete, withMain]
  cases q.mainTable? <;> rfl

theorem statement_flat {q : Query} (filters : q.kind.filters) :
    q.toFragment = clauses (q.beforeWhere ++ conditionClause " WHERE " q.whereTree :: q.behindWhere) := by
  rw [toFragment_eq, statement]
  cases kind : q.kind with
  | select => exact select_flat kind
  | update => exact update_flat kind
  | delete => exact delete_flat kind
  | insert | truncate =>
      rw [kind] at filters
      cases filters

theorem unfiltered_flat {q : Query} (filters : q.kind.filters) :
    (q.reset .where_).toFragment = clauses (q.beforeWhere ++ q.behindWhere) := by
  have flat := statement_flat (q := q.reset .where_) filters
  have without : clauses (conditionClause " WHERE " none :: q.behindWhere) = clauses q.behindWhere := by
    rw [conditionClause, clauses_cons]
    cases clauses q.behindWhere with
    | error e => rfl
    | ok g => exact congrArg Except.ok (empty_append g)
  exact flat.trans (clauses_behind q.beforeWhere without)

end Query

-- What a clause of conditions comes to: nothing for a tree without leaves, else the keyword and the text of the tree.
inductive Headed (keyword : String) (c : Condition) : Fragment → Prop
  | absent : c.leaves = [] → Headed keyword c .empty
  | present {t : Fragment} : c.leaves ≠ [] → c.toFragment = .ok t → Headed keyword c (.literal keyword ++ t)

theorem condition_clause_headed {keyword : String} {tree : Option Condition} {g : Fragment}
    (made : conditionClause keyword tree = .ok g) : Headed keyword (tree.getD (.empty .and)) g := by
  rw [← opened_tree_clause, conditionClause] at made
  by_cases blank : (tree.getD (.empty .and)).isBlank
  · rw [if_pos blank] at made
    cases made
    exact .absent ((blank_iff_no_leaves _).mp blank)
  · rw [if_neg blank] at made
    obtain ⟨t, written, rfl⟩ := map_ok_inv made
    exact .present (mt (blank_iff_no_leaves _).mpr blank) written

theorem where_clause_written {q : Query} (filters : q.kind.filters) {f : Fragment} (made : q.toFragment = .ok f) :
    ∃ head g tail, clauses q.beforeWhere = .ok head ∧ Headed " WHERE " (q.tree .where_) g ∧
      clauses q.behindWhere = .ok tail ∧ f = head ++ (g ++ tail) ∧
      (q.reset .where_).toFragment = .ok (head ++ tail) := by
  rw [Query.statement_flat filters] at made
  obtain ⟨head, rest, before, others, rfl⟩ := clauses_append_ok made
  obtain ⟨g, tail, clause, behind, rfl⟩ := clauses_cons_ok others
  refine ⟨head, g, tail, before, condition_clause_headed clause, behind, rfl, ?_⟩
  rw [Query.unfiltered_flat filters, clauses_append, before, behind]
  rfl

theorem where_clause_kept (start : Start) (actions : List Action) (d : Draft)
    (reachable : d ∈ ((Session.begin start).run actions).drafts) (filters : d.query.kind.filters) (c : Compiled)
    (answered : Run.answer Draft.compile d = .ok c) :
    ∃ f head tail,
      d.query.toFragment = .ok f ∧ f.compile = .ok c ∧
      clauses d.query.beforeWhere = .ok head ∧ clauses d.query.behindWhere = .ok tail ∧
      (d.query.reset .where_).toFragment = .ok (head ++ tail) ∧
      ((d.query.tree .where_).leaves ≠ [] → ∃ t, (d.query.tree .where_).toFragment = .ok t ∧
        f.text = head.text ++ " WHERE " ++ t.text ++ tail.text ∧ f.params = head.params ++ t.params ++ tail.params) ∧
      ((d.query.tree .where_).leaves = [] → f = head ++ tail) := by
  rw [fresh_compile_answer d (reachable_fresh reachable), query_compile_bind] at answered
  cases made : d.query.toFragment with
  | error e =>
      rw [made] at answered
      cases answered
  | ok f =>
      rw [made] at answered
      obtain ⟨head, g, tail, before, clause, behind, rfl, bare⟩ := where_clause_written filters made
      refine ⟨_, head, tail, rfl, answered, before, behind, bare, fun some => ?_, fun none => ?_⟩
      · cases clause with
        | absent none => exact absurd none some
        | @present t _ written =>
            refine ⟨t, written, ?_, ?_⟩
            · change head.text ++ (" WHERE " ++ t.text ++ tail.text) = _
              simp only [String.append_assoc]
            · change head.params ++ ([] ++ t.params ++ tail.params) = _
              simp only [List.nil_append, List.append_assoc]
      · cases clause with
        | absent => rw [empty_append]
        | present some => exact absurd none some

-- A group is opened in a group, and what is put behind it is removed again.
def trimmedActions : List Action :=
  [.edit 0 (.group .where_ .or) [.descend .and, .add (.text "a") [.int 1], .parent, .add (.text "b") [.int 2], .remove 1],
    .call 0 (.returning [.raw "id"])]

def trimmed : Draft :=
  .ofQuery { Query.ofTable .delete "t" with
    whereTree := some ⟨.and, [.branch ⟨.or, [.branch ⟨.and, [.leaf "a" [.int 1]]⟩]⟩]⟩
    returning := [⟨none, .raw "id"⟩] }

theorem trimmed_where_kept :
    trimmed ∈ ((Session.begin (.ofTable .delete "t")).run trimmedActions).drafts ∧
    trimmed.query.kind.filters ∧
    Run.answer Draft.compile trimmed = .ok ⟨"DELETE FROM t WHERE a = $1 RETURNING id", [.int 1]⟩ ∧
    (trimmed.query.tree .where_).leaves ≠ [] ∧
    ∃ f head tail t, trimmed.query.toFragment = .ok f ∧
      clauses trimmed.query.beforeWhere = .ok head ∧ clauses trimmed.query.behindWhere = .ok tail ∧
      (trimmed.query.tree .where_).toFragment = .ok t ∧ f.text = head.text ++ " WHERE " ++ t.text ++ tail.text := by
  have reachable : trimmed ∈ ((Session.begin (.ofTable .delete "t")).run trimmedActions).drafts :=
    List.mem_singleton.mpr rfl
  have answered : Run.answer Draft.compile trimmed = .ok ⟨"DELETE FROM t WHERE a = $1 RETURNING id", [.int 1]⟩ := by
    cbv
  have some : (trimmed.query.tree .where_).leaves ≠ [] := List.cons_ne_nil _ _
  obtain ⟨f, head, tail, made, _, before, behind, _, written, _⟩ :=
    where_clause_kept _ trimmedActions trimmed reachable rfl _ answered
  obtain ⟨t, own, text, -⟩ := written some
  exact ⟨reachable, rfl, answered, some, f, head, tail, t, made, before, behind, own, text⟩

end QueryBuilder

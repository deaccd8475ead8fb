import QueryBuilder.Proofs.Session

/-!
Calls that are refused.

Main statement: a refused call leaves the kind of a query and its compiled form as they were, unless
it is one that turns the query into a statement of another kind. That one has set the kind before
its table is refused, and has changed nothing else.
-/

set_option autoImplicit false

namespace QueryBuilder

-- The kind that a call turns the query into.
def Call.target? : Call → Option QueryKind
  | .insert _ => some .insert
  | .update _ => some .update
  | .delete _ => some .delete
  | .truncate _ => some .truncate
  | _ => none

theorem change_all_cons (c : Change) (cs : List Change) (d : Draft) :
    Draft.changeAll (c :: cs) d =
      match c d.query with
      | .error e => .error e d
      | .ok q => Draft.changeAll cs (d.replace q) := by
  simp only [Draft.changeAll, Draft.change]
  cases c d.query <;> rfl

-- A sequence is refused by its first change, or by the others on the query that the first one gives.
theorem change_all_refused {c : Change} {cs : List Change} {d after : Draft} {e : Error}
    (refused : Draft.changeAll (c :: cs) d = .error e after) :
    (c d.query = .error e ∧ after = d) ∨
      ∃ q, c d.query = .ok q ∧ Draft.changeAll cs (d.replace q) = .error e after := by
  rw [change_all_cons] at refused
  cases changed : c d.query with
  | error fault =>
      rw [changed] at refused
      cases refused
      exact .inl ⟨rfl, rfl⟩
  | ok q =>
      rw [changed] at refused
      exact .inr ⟨q, rfl, refused⟩

theorem single_change_refused {c : Change} {d after : Draft} {e : Error}
    (refused : Draft.changeAll [c] d = .error e after) : after = d := by
  obtain ⟨-, kept⟩ | ⟨q, -, rest⟩ := change_all_refused refused
  · exact kept
  · cases rest

theorem bare_condition_accepted (cond : Cond) : cond.toNode [] = .ok cond.bareNode := by
  cases cond <;> rfl

theorem bare_condition_never_refused {slot : Slot} {cond : Cond} {d after : Draft} {e : Error} :
    Draft.changeAll [.addCondition slot cond []] d ≠ .error e after := by
  intro refused
  obtain ⟨failed, -⟩ | ⟨q, -, rest⟩ := change_all_refused refused
  · rw [Change.addCondition, Condition.add, bare_condition_accepted] at failed
    cases failed
  · cases rest

-- The table is refused before the tree of a join is opened, and a tree takes any condition that
-- brings no parameters.
theorem join_refused {kind : JoinKind} {source : Value} {aliasName : Option String} {on : Option Cond}
    {d after : Draft} {e : Error} (refused : Draft.call (.join kind source aliasName on) d = .error e after) :
    after = d := by
  cases on with
  | none => exact single_change_refused refused
  | some cond =>
      obtain ⟨-, kept⟩ | ⟨q, -, opening⟩ := change_all_refused refused
      · exact kept
      · obtain ⟨failed, -⟩ | ⟨r, -, adding⟩ := change_all_refused opening
        · cases failed
        · exact absurd adding bare_condition_never_refused

theorem condition_refused {slot : Slot} {cond : Cond} {params : List Value} {d after : Draft} {e : Error}
    (refused : Draft.call (.addCondition slot cond params) d = .error e after) :
    after = d.replace (d.query.openTree slot) := by
  obtain ⟨failed, -⟩ | ⟨q, opened, adding⟩ := change_all_refused refused
  · cases failed
  · cases opened
    exact single_change_refused adding

theorem retarget_refused {kind : QueryKind} {table : Value} {d after : Draft} {e : Error}
    (refused : Draft.changeAll (Call.retarget kind table) d = .error e after) :
    after = d.replace { d.query with kind } := by
  obtain ⟨failed, -⟩ | ⟨q, retargeted, adding⟩ := change_all_refused refused
  · cases failed
  · cases retargeted
    exact single_change_refused adding

-- All that the calls of a builder leave behind when they are refused.
theorem call_refused {c : Call} {d after : Draft} {e : Error} (refused : Draft.call c d = .error e after) :
    (∃ kind, c.target? = some kind ∧ after = d.replace { d.query with kind }) ∨
      c.target? = none ∧ (after = d ∨ ∃ slot, after = d.replace (d.query.openTree slot)) := by
  cases c with
  | insert table => exact .inl ⟨.insert, rfl, retarget_refused refused⟩
  | update table => exact .inl ⟨.update, rfl, retarget_refused refused⟩
  | delete table => exact .inl ⟨.delete, rfl, retarget_refused refused⟩
  | truncate table => exact .inl ⟨.truncate, rfl, retarget_refused refused⟩
  | addCondition slot cond params => exact .inr ⟨rfl, .inr ⟨slot, condition_refused refused⟩⟩
  | join kind source aliasName on => exact .inr ⟨rfl, .inl (join_refused refused)⟩
  | table | listTable | select | selectAs | distinct | groupBy | orderBy | limit | offset | combine | columns
  | values | rows | selectSource | returning | returningAs | leading | trailing | reset | resetField
  | setQueryType => exact .inr ⟨rfl, .inl (single_change_refused refused)⟩

theorem opened_tree_clause (keyword : String) (tree : Option Condition) :
    conditionClause keyword (some (tree.getD (.empty .and))) = conditionClause keyword tree := by
  cases tree with
  | none => rfl
  | some c => rfl

def Query.withTrees (q : Query) (joins : List JoinTree) (filter having : Option Condition) : Query :=
  { q with joinTrees := joins, whereTree := filter, havingTree := having }

-- A statement sees of its trees what their clauses are.
theorem to_fragment_with_trees (q : Query) (joins : List JoinTree) (filter having : Option Condition)
    (on : ∀ kind aliasName, (q.withTrees joins filter having).onClause kind aliasName = q.onClause kind aliasName)
    (filtered : conditionClause " WHERE " filter = conditionClause " WHERE " q.whereTree)
    (kept : conditionClause " HAVING " having = conditionClause " HAVING " q.havingTree) :
    (q.withTrees joins filter having).toFragment = q.toFragment := by
  have joined : (q.withTrees joins filter having).joinsClause = q.joinsClause := by
    have each : (q.withTrees joins filter having).joinClause = q.joinClause := by
      funext t
      simp only [Query.joinClause, on]
    simp only [Query.joinsClause, each]
    rfl
  have selected : (q.withTrees joins filter having).selectStatement = q.selectStatement := by
    simp only [Query.selectStatement, Query.fromClause, joined]
    simp only [Query.withTrees, filtered, kept]
    rfl
  have updated : (q.withTrees joins filter having).updateStatement = q.updateStatement := by
    simp only [Query.updateStatement, joined]
    simp only [Query.withTrees, filtered]
    rfl
  have deleted : (q.withTrees joins filter having).deleteStatement = q.deleteStatement := by
    simp only [Query.deleteStatement, Query.withTrees, filtered]
    rfl
  simp only [Query.toFragment_eq, Query.statement, selected, updated, deleted]
  rfl

theorem put_join_tree_lookup (aliasName other : String) (tree : Condition) (trees : List JoinTree) :
    ((putJoinTree aliasName tree trees).find? fun j => j.aliasName == other).map JoinTree.tree =
      if aliasName = other then some tree else (trees.find? fun j => j.aliasName == other).map JoinTree.tree := by
  induction trees with
  | nil => by_cases same : aliasName = other <;> simp [putJoinTree, same]
  | cons j rest ih =>
      by_cases found : j.aliasName = aliasName
      · by_cases same : aliasName = other <;> simp [putJoinTree, found, same]
      · by_cases here : j.aliasName = other
        · have different : aliasName ≠ other := fun same => found (here.trans same.symm)
          simp [putJoinTree, here, different, Ne.symm different]
        · simpa [putJoinTree, found, here] using ih

-- A tree that is opened is blank, and a blank tree is refused as an absent one is.
theorem on_clause_opened (q : Query) (opened : String) (kind : JoinKind) (aliasName : String) :
    (q.openTree (.on opened)).onClause kind aliasName = q.onClause kind aliasName := by
  have lookup : (q.openTree (.on opened)).joinTree? aliasName =
      if opened = aliasName then some ((q.joinTree? opened).getD (.empty .and)) else q.joinTree? aliasName :=
    put_join_tree_lookup opened aliasName _ q.joinTrees
  by_cases same : opened = aliasName
  · rw [if_pos same] at lookup
    unfold Query.onClause
    rw [lookup, ← same]
    cases q.joinTree? opened <;> rfl
  · rw [if_neg same] at lookup
    unfold Query.onClause
    rw [lookup]

theorem open_tree_to_fragment (q : Query) (slot : Slot) : (q.openTree slot).toFragment = q.toFragment := by
  cases slot with
  | where_ => exact to_fragment_with_trees q _ _ _ (fun _ _ => rfl) (opened_tree_clause _ _) rfl
  | having => exact to_fragment_with_trees q _ _ _ (fun _ _ => rfl) rfl (opened_tree_clause _ _)
  | on opened => exact to_fragment_with_trees q _ _ _ (on_clause_opened q opened) rfl rfl

theorem compile_of_fragment {q r : Query} (same : q.toFragment = r.toFragment) : q.compile = r.compile := by
  rw [Query.compile, Query.compile, same]

theorem refused_call_fresh {c : Call} {d after : Draft} {e : Error} (fresh : d.Fresh)
    (refused : Draft.call c d = .error e after) : after.Fresh := by
  have kept := change_all_fresh c.changes d fresh
  have reached : Run.after (Draft.changeAll c.changes) d = after := by
    rw [Draft.call] at refused
    simp only [Run.after, refused]
  rwa [reached] at kept

theorem refused_call_keeps_statement (start : Start) (actions : List Action) (d after : Draft) (c : Call) (e : Error)
    (reachable : d ∈ ((Session.begin start).run actions).drafts) (refused : Draft.call c d = .error e after) :
    (c.target? = none →
      after.query.kind = d.query.kind ∧ Run.answer Draft.compile after = Run.answer Draft.compile d) ∧
    ∀ kind, c.target? = some kind → after.query = { d.query with kind } := by
  have fresh : d.Fresh := reachable_fresh reachable
  have freshAfter : after.Fresh := refused_call_fresh fresh refused
  rw [fresh_compile_answer d fresh, fresh_compile_answer after freshAfter]
  obtain ⟨kind, target, rfl⟩ | ⟨target, rfl | ⟨slot, rfl⟩⟩ := call_refused refused
  · rw [target]
    refine ⟨nofun, fun other same => ?_⟩
    cases same
    rfl
  · rw [target]
    exact ⟨fun _ => ⟨rfl, rfl⟩, nofun⟩
  · rw [target]
    refine ⟨fun _ => ⟨?_, compile_of_fragment (open_tree_to_fragment d.query slot)⟩, nofun⟩
    cases slot <;> rfl

-- The join has no conditions yet, and the one that it is offered is refused after its tree is made.
def unjoinedPosts : Draft :=
  .ofQuery { Query.empty .select with
    items := [⟨none, .raw "id"⟩]
    tables := [⟨"users", .name "users", .main⟩, ⟨"posts", .name "posts", .joined .inner⟩]
    main := some "users" }

def offerBranch : Call :=
  .addCondition (.on "posts") (.branch (.ofConds .or [.text "posts.open", .text "posts.late"])) [.int 1]

theorem refused_branch_keeps_statement :
    let actions := [Action.call 0 (.table (.text "users") none), .call 0 (.join .inner (.text "posts") none none),
      .call 0 (.select [.raw "id"])]
    let after := unjoinedPosts.replace (unjoinedPosts.query.openTree (.on "posts"))
    unjoinedPosts ∈ ((Session.begin (.blank .select)).run actions).drafts ∧
    Draft.call offerBranch unjoinedPosts = .error (.onlyStringConditionCanHaveParams 1) after ∧
    after.query.kind = unjoinedPosts.query.kind ∧
    Run.answer Draft.compile after = Run.answer Draft.compile unjoinedPosts := by
  intro actions after
  have reachable : unjoinedPosts ∈ ((Session.begin (.blank .select)).run actions).drafts :=
    List.mem_singleton.mpr rfl
  have refused : Draft.call offerBranch unjoinedPosts = .error (.onlyStringConditionCanHaveParams 1) after := rfl
  exact ⟨reachable, refused,
    (refused_call_keeps_statement _ actions unjoinedPosts after offerBranch _ reachable refused).1 rfl⟩

-- A second main table is refused when the query is an INSERT already.
theorem refused_insert_turns_kind :
    ¬ ∀ (start : Start) (actions : List Action) (d after : Draft) (c : Call) (e : Error),
      d ∈ ((Session.begin start).run actions).drafts → Draft.call c d = .error e after →
      after.query.kind = d.query.kind ∧ Run.answer Draft.compile after = Run.answer Draft.compile d := by
  intro keeps
  have kept := keeps (.ofTable .select "a") [.call 0 (.select [.raw "x"])] _ _ (.insert (.text "b")) _
    (List.mem_singleton.mpr rfl) rfl
  cases kept.1

end QueryBuilder

import Mathlib.Data.List.Nodup
import QueryBuilder.Proofs.Aspects
import QueryBuilder.Proofs.ParameterOrder
import QueryBuilder.Proofs.Registry
import QueryBuilder.Proofs.Sameness
import QueryBuilder.Proofs.Session
import QueryBuilder.Proofs.ValueIndependence

/-!
Queries that are the same compile to the same.

Main statement: of two drafts whose queries are the same, whatever was done to them and whatever they
remember, either both fail to compile with one error, or both compile to one text, with parameters that
are the same.
-/

set_option autoImplicit false

namespace QueryBuilder

section Alike

variable {link : Comparison}

mutual
theorem node_alike_of_matches (m n : Node) (shape : m.Matches (LeavesMatch (Value.Alike link)) n) : m.Alike link n := by
  cases shape with
  | leaf params =>
      obtain ⟨rfl, params⟩ := params
      exact .leaf _ params
  | branch below => exact .branch (tree_alike_of_matches _ _ below)

theorem tree_alike_of_matches (c d : Condition) (shape : c.Compares (Value.Alike link) d) : c.Alike link d := by
  cases shape with
  | mk combinator below => exact .mk combinator (nodes_alike_of_match _ _ below)

theorem nodes_alike_of_match (ms ns : List Node)
    (shape : List.Forall₂ (Node.Matches (LeavesMatch (Value.Alike link))) ms ns) : List.Forall₂ (Node.Alike link) ms ns := by
  cases shape with
  | nil => exact .nil
  | cons head tail => exact .cons (node_alike_of_matches _ _ head) (nodes_alike_of_match _ _ tail)
end

theorem fragment_alike_inner {f g : Fragment} (alike : Value.Alike link (.fragment f) (.fragment g)) : f.Alike link g := by
  cases alike with
  | scalar left => cases left
  | fragment inner => exact inner

theorem query_alike_inner {q r : Query} (alike : Value.Alike link (.query q) (.query r)) : q.Alike link r := by
  cases alike with
  | scalar left => cases left
  | query inner => exact inner

theorem option_rel_imp {α β : Type} {rel next : α → β → Prop} (step : ∀ a b, rel a b → next a b) {o : Option α}
    {p : Option β} (related : Option.Rel rel o p) : Option.Rel next o p := by
  cases related with
  | none => exact .none
  | some both => exact .some (step _ _ both)

theorem expr_alike_of_matches {a b : Expr} (shape : a.Matches (Value.Alike link) b) : a.Alike link b := by
  obtain ⟨text, values⟩ := shape
  cases a with
  | raw s =>
      cases b with
      | raw t =>
          cases text
          exact .raw s
      | value w => cases text
  | value v =>
      cases b with
      | raw t => cases text
      | value w =>
          cases values with
          | cons alike _ => exact .value alike

theorem item_alike_of_matches (a b : SelectItem) (shape : a.Matches (Value.Alike link) b) : a.Alike link b := by
  obtain ⟨look, values⟩ := shape
  obtain ⟨aliasName, a⟩ := a
  obtain ⟨aliasName', b⟩ := b
  obtain ⟨rfl, text⟩ := Prod.mk.inj look
  exact .mk aliasName (expr_alike_of_matches ⟨text, values⟩)

theorem table_alike_of_matches (s t : Table) (shape : s.Matches (Value.Alike link) t) : s.Alike link t := by
  obtain ⟨look, values⟩ := shape
  obtain ⟨aliasName, source, role⟩ := s
  obtain ⟨aliasName', source', role'⟩ := t
  simp only [Prod.mk.injEq] at look
  obtain ⟨rfl, rfl, name⟩ := look
  refine .mk aliasName role ?_
  cases source with
  | name s =>
      cases source' with
      | name t =>
          cases name
          exact .name s
      | fragment | query => cases name
  | fragment f =>
      cases source' with
      | name t => cases name
      | fragment g =>
          cases values with
          | cons alike _ => exact .fragment (fragment_alike_inner alike)
      | query r =>
          cases values with
          | cons alike _ => cases alike with
            | scalar left => cases left
  | query q =>
      cases source' with
      | name t => cases name
      | fragment g =>
          cases values with
          | cons alike _ => cases alike with
            | scalar left => cases left
      | query r =>
          cases values with
          | cons alike _ => exact .query (query_alike_inner alike)

theorem operation_alike_of_matches (s t : SetOperation) (shape : s.Matches (Value.Alike link) t) : s.Alike link t := by
  obtain ⟨operator, values⟩ := shape
  obtain ⟨o, v⟩ := s
  obtain ⟨o', w⟩ := t
  obtain rfl : o = o' := operator
  cases values with
  | cons alike _ => exact .mk o alike

theorem cell_alike_of_matches (c d : Cell) (shape : c.Matches (Value.Alike link) d) : c.Alike link d := by
  obtain ⟨columns, values⟩ := shape
  obtain ⟨column, v⟩ := c
  obtain ⟨column', w⟩ := d
  obtain rfl : column = column' := columns
  cases values with
  | cons alike _ => exact .mk column alike

theorem query_alike_of_matches (ints : ∀ n, link (.int n) (.int n)) {q r : Query}
    (shape : q.Matches (Value.Alike link) r) : q.Alike link r := by
  obtain ⟨frame, items, tables, ⟨-, trees⟩, filter, groups, having, orders, operations, source, returning, data, rows,
    leading, trailing⟩ := shape
  simp only [Query.frame, Prod.mk.injEq] at frame
  obtain ⟨kind, distinct, main, limit, offset, columns⟩ := frame
  have count {m n : Option Int64} (same : m = n) : Option.Rel (fun m n => link (.int m) (.int n)) m n := by
    subst same
    cases m with
    | none => exact .none
    | some n => exact .some (ints n)
  have tree {o p : Option Condition} (related : Option.Rel (Condition.Compares (Value.Alike link)) o p) :
      Option.Rel (Condition.Alike link) o p :=
    option_rel_imp tree_alike_of_matches related
  exact .mk kind (items.imp item_alike_of_matches) distinct (tables.imp table_alike_of_matches) main
    (fun aliasName => tree (trees aliasName)) (tree filter) (groups.imp fun _ _ => expr_alike_of_matches) (tree having)
    (orders.imp fun _ _ => expr_alike_of_matches) (count limit) (count offset)
    (operations.imp operation_alike_of_matches) columns (option_rel_imp (fun _ _ => query_alike_inner) source)
    (returning.imp item_alike_of_matches) (data.imp cell_alike_of_matches)
    (rows.imp fun _ _ row => row.imp cell_alike_of_matches) (leading.imp fun _ _ => fragment_alike_inner)
    (trailing.imp fun _ _ => fragment_alike_inner)

theorem alike_of_matches (ints : ∀ n, link (.int n) (.int n)) {v w : Value} (compound : v.isAtom = false)
    (shape : v.Matches (Value.Alike link) w) : v.Alike link w := by
  cases v with
  | array vs =>
      cases w with
      | array ws => exact .array shape
      | _ => cases shape.1
  | fragment f =>
      cases w with
      | fragment g =>
          obtain ⟨look, params⟩ := shape
          obtain ⟨text, tag⟩ := Prod.mk.inj look
          exact .fragment (.mk text params tag)
      | _ => cases shape.1
  | query q =>
      cases w with
      | query r => exact .query (query_alike_of_matches ints shape)
      | _ => cases shape.1
  | _ => cases compound

end Alike

theorem atom_alike {v w : Value} (atom : v.isAtom = true) (same : Same v w) : v.Alike Same w := by
  cases v with
  | null =>
      cases w with
      | null => exact .null
      | _ => cases same
  | bool b =>
      cases w with
      | bool c =>
          obtain rfl : b = c := by simpa [Same, Value.same] using same
          exact .bool b
      | _ => cases same
  | array | fragment | query => cases atom
  | _ =>
      refine .scalar rfl ?_ same
      cases w <;> first | rfl | cases same

-- Values that are the same have one shape, down to scalars that are the same.
theorem alike_of_same (v : Value) (formed : v.WellFormed) (w : Value) (same : Same v w) : v.Alike Same w := by
  induction v using part_induct generalizing w with
  | step v ih =>
      cases atom : v.isAtom with
      | true => exact atom_alike atom same
      | false =>
          have here := well_formed_self formed
          have ints (n : Int64) : Same (.int n) (.int n) := by simp [Same, Value.same]
          refine alike_of_matches ints atom
            ((lifts_compound atom here).mono (fun x member y => ?_) ((value_same_iff here w).mp same))
          exact ih x member (well_formed_part formed member) y

theorem same_of_alike_atom {v w : Value} (atom : v.isAtom = true) (alike : v.Alike Same w) : Same v w := by
  cases alike with
  | scalar _ _ same => exact same
  | null => rfl
  | bool b => simp [Same, Value.same]
  | array | fragment | query => cases atom

theorem same_params {vs ws : List Value} (atoms : ∀ v ∈ vs, v.isAtom = true)
    (alike : List.Forall₂ (Value.Alike Same) vs ws) : sameValues vs ws = true := by
  rw [same_values_iff]
  exact (lifts_values vs).mono (fun v member w => same_of_alike_atom (atoms v member)) alike

-- The aliases stay as they are, or the new one comes last.
theorem put_join_tree_aliases (aliasName : String) (tree : Condition) (trees : List JoinTree) :
    (putJoinTree aliasName tree trees).map JoinTree.aliasName =
      if aliasName ∈ trees.map JoinTree.aliasName then trees.map JoinTree.aliasName
      else trees.map JoinTree.aliasName ++ [aliasName] := by
  induction trees with
  | nil => rfl
  | cons j rest ih =>
      by_cases here : j.aliasName = aliasName
      · simp [putJoinTree, here]
      · rw [putJoinTree, if_neg here, List.map_cons, ih]
        by_cases later : aliasName ∈ rest.map JoinTree.aliasName
        · simp [later]
        · simp [later, Ne.symm here]

theorem put_tree_keyed (q : Query) (slot : Slot) (tree : Condition) (keyed : q.Keyed) : (q.putTree slot tree).Keyed := by
  cases slot with
  | where_ | having => exact keyed
  | on aliasName =>
      have aliases := put_join_tree_aliases aliasName tree q.joinTrees
      rw [Query.Keyed, Query.putTree, aliases]
      by_cases there : aliasName ∈ q.joinTrees.map JoinTree.aliasName
      · rw [if_pos there]
        exact keyed
      · rw [if_neg there]
        refine List.nodup_append.mpr ⟨keyed, List.nodup_singleton _, fun a old b new same => there ?_⟩
        rw [List.mem_singleton.mp new] at same
        exact same ▸ old

-- A call that is not about the ON trees leaves them; those that are put one, or take all away.
theorem changes_keyed (call : Call) : ∀ c ∈ call.changes, ∀ q r : Query, q.Keyed → c q = .ok r → r.Keyed := by
  by_cases joins : Aspect.field .joins ∈ call.aspects
  · have opened (slot : Slot) (q r : Query) (keyed : q.Keyed) (made : Change.openTree slot q = .ok r) : r.Keyed := by
      cases made
      exact put_tree_keyed q slot _ keyed
    have added (slot : Slot) (cond : Cond) (params : List Value) (q r : Query) (keyed : q.Keyed)
        (made : Change.addCondition slot cond params q = .ok r) : r.Keyed :=
      map_ok made fun tree => put_tree_keyed q slot tree keyed
    have emptied (field : Field) (q : Query) (keyed : q.Keyed) : (q.reset field).Keyed := by
      cases field with
      | joins => exact List.nodup_nil
      | _ => exact keyed
    cases call with
    | join kind source aliasName on =>
        have table (q r : Query) (keyed : q.Keyed) (made : Change.addTable source aliasName (.joined kind) q = .ok r) :
            r.Keyed :=
          map_ok made fun _ => keyed
        cases on with
        | none => exact List.forall_mem_singleton.mpr table
        | some cond =>
            simp only [Call.changes, List.forall_mem_cons, List.not_mem_nil]
            exact ⟨table, opened _, added _ cond [], fun _ none => none.elim⟩
    | addCondition slot cond params =>
        simp only [Call.changes, List.forall_mem_cons, List.not_mem_nil]
        exact ⟨opened slot, added slot cond params, fun _ none => none.elim⟩
    | reset name =>
        exact List.forall_mem_singleton.mpr fun q r keyed made => map_ok made fun field => emptied field q keyed
    | resetField field =>
        refine List.forall_mem_singleton.mpr fun q r keyed made => ?_
        cases made
        exact emptied field q keyed
    | _ => simp [Call.aspects] at joins
  · intro c member q r keyed made
    obtain ⟨a, inside, g, about⟩ | ⟨e, rfl⟩ := changes_about call c member
    · have apart : Aspect.field .joins ≠ a := fun same => joins (same ▸ inside)
      rw [about] at made
      refine map_ok made fun x => ?_
      have trees : (q.put a x).joinTrees = q.joinTrees := q.look_put_other apart x
      rw [Query.Keyed, trees]
      exact keyed
    · cases made

theorem keyed_kept : Draft.Kept fun d => d.query.Keyed :=
  query_kept (fun s => by cases s <;> exact List.nodup_nil) changes_keyed put_tree_keyed

theorem same_queries_compile_alike (start start' : Start) (actions actions' : List Action) (d e : Draft)
    (reachable : d ∈ ((Session.begin start).run actions).drafts)
    (reachable' : e ∈ ((Session.begin start').run actions').drafts)
    (formed : ∀ v ∈ d.query.parts, v.WellFormed) (same : d.same e = true) :
    (∃ fault, Run.answer Draft.compile d = .error fault ∧ Run.answer Draft.compile e = .error fault) ∨
    ∃ c c', Run.answer Draft.compile d = .ok c ∧ Run.answer Draft.compile e = .ok c' ∧ c.sql = c'.sql ∧
      sameValues c.params c'.params = true := by
  rw [fresh_compile_answer d (reachable_fresh reachable), fresh_compile_answer e (reachable_fresh reachable')]
  have whole : (Value.query d.query).WellFormed :=
    well_formed_of (reachable_keeps keyed_kept reachable) formed
  have alike := query_alike_inner (alike_of_same (.query d.query) whole (.query e.query) same)
  obtain ⟨fault, left, right⟩ | ⟨c, c', left, right, related⟩ := agree_cases (agree_compile_query alike)
  · exact .inl ⟨fault, left, right⟩
  · exact .inr ⟨c, c', left, right, related.sql, same_params (compiled_params_atoms left) related.params⟩

-- The score of the tags of a post, whose ON trees are registered as they are listed.
def scoredTags (trees : List JoinTree) : Query :=
  { Query.empty .select with
    items := [⟨none, .raw "id"⟩]
    tables := [⟨"posts", .name "posts", .main⟩, ⟨"tags", .name "tags", .joined .inner⟩,
      ⟨"votes", .name "votes", .joined .left⟩]
    main := some "posts"
    joinTrees := trees }

def tagTree (x : Double) : JoinTree :=
  ⟨"tags", ⟨.and, [.leaf "tags.score = ?" [.float x]]⟩⟩

def voteTree : JoinTree :=
  ⟨"votes", ⟨.and, [.leaf "votes.post = posts.id" []]⟩⟩

theorem turned_registration_compiles_alike :
    let tags (x : Double) := Action.edit 0 (.root (.on "tags")) [.add (.text "tags.score = ?") [.float x]]
    let votes := Action.call 0 (.join .left (.text "votes") none (some (.text "votes.post = posts.id")))
    let opening := [Action.call 0 (.select [.raw "id"]), .call 0 (.join .inner (.text "tags") none none)]
    let d := Draft.ofQuery (scoredTags [tagTree ⟨0⟩, voteTree])
    let e := (Run.after Draft.compile (.ofQuery (scoredTags [voteTree, tagTree ⟨0x8000000000000000⟩]))).markFinal
    let actions := opening ++ [tags ⟨0⟩, votes]
    let actions' := opening ++ [votes, tags ⟨0x8000000000000000⟩, .observe 0 .compile, .markFinal 0]
    d ∈ ((Session.begin (.ofTable .select "posts")).run actions).drafts ∧
    e ∈ ((Session.begin (.ofTable .select "posts")).run actions').drafts ∧
    d.same e = true ∧
    ((∃ fault, Run.answer Draft.compile d = .error fault ∧ Run.answer Draft.compile e = .error fault) ∨
      ∃ c c', Run.answer Draft.compile d = .ok c ∧ Run.answer Draft.compile e = .ok c' ∧ c.sql = c'.sql ∧
        sameValues c.params c'.params = true) := by
  intro tags votes opening d e actions actions'
  have reachable : d ∈ ((Session.begin (.ofTable .select "posts")).run actions).drafts := List.mem_singleton.mpr rfl
  have reachable' : e ∈ ((Session.begin (.ofTable .select "posts")).run actions').drafts := List.mem_singleton.mpr rfl
  have same : d.same e = true := by
    have kept : e.query = scoredTags [voteTree, tagTree ⟨0x8000000000000000⟩] := compile_query _
    rw [Draft.same, kept]
    decide +kernel
  have formed : ∀ v ∈ d.query.parts, v.WellFormed := by
    have score : (Value.float ⟨0⟩).WellFormed := atom_well_formed rfl trivial
    have held : d.query.parts = [.float ⟨0⟩] := rfl
    rw [held]
    exact List.forall_mem_singleton.mpr score
  exact ⟨reachable, reachable', same,
    same_queries_compile_alike _ _ actions actions' d e reachable reachable' formed same⟩

end QueryBuilder

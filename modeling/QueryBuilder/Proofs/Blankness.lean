import QueryBuilder.Fragment.Call
import QueryBuilder.Proofs.Regrouping
import QueryBuilder.Proofs.WhereClause

/-!
Keywords in front of conditions.

Main statement: `WHERE`, `HAVING` and `ON` are written exactly for the trees that have a leaf, and a
join without one fails. A tree with leaves has a text behind its keyword unless its one leaf is an empty
text without parameters: two or more parts are joined by a combinator, and each of them is in parentheses.
-/

set_option autoImplicit false

namespace QueryBuilder

-- Nothing fails, and nothing is written either.
def Wordless (r : Except Error Fragment) : Prop :=
  ∃ t, r = .ok t ∧ t.text = ""

theorem wordless_ok {t : Fragment} : Wordless (.ok t) ↔ t.text = "" := by
  constructor
  · rintro ⟨_, same, none⟩
    cases same
    exact none
  · exact fun none => ⟨t, rfl, none⟩

theorem not_wordless {r : Except Error Fragment} (written : Yields (fun _ => True) (fun t => t.text ≠ "") r) :
    ¬ Wordless r := by
  rintro ⟨t, rfl, none⟩
  exact yields_good written none

theorem parenthesized_not_empty (t : Fragment) : (parenthesized t).text ≠ "" := by
  rw [Ne, ← String.toList_eq_nil_iff, parenthesized_text]
  nofun

theorem wrapped_wordless (r : Except Error Fragment) (wrap : Bool) :
    Wordless (r.map fun t => if wrap then parenthesized t else t) ↔ wrap = false ∧ Wordless r := by
  cases r with
  | error e => exact iff_of_false nofun nofun
  | ok t =>
      rw [Except.map, wordless_ok, wordless_ok]
      cases wrap with
      | false => exact (and_iff_right rfl).symm
      | true => exact iff_of_false (parenthesized_not_empty t) nofun

theorem joined_not_empty {k : Combinator} {parts : List Fragment} (several : 1 < parts.length) :
    (Fragment.joinWith (" " ++ k.keyword ++ " ") parts).text ≠ "" := by
  match parts with
  | f :: g :: rest =>
      rw [Ne, ← String.toList_eq_nil_iff, joined_text]
      simp

theorem appended_not_empty (text : String) {ending : String} (some : ending ≠ "") : text ++ ending ≠ "" := by
  rw [Ne, String.append_eq_empty_iff]
  exact fun both => some both.2

-- What completes a leaf is a text of its own.
theorem leaf_wordless (text : String) (params : List Value) :
    Wordless (leafFragment text params) ↔ text = "" ∧ params = [] := by
  by_cases matched : Marker.count text = params.length
  · rw [show leafFragment text params = .ok ⟨text, params, none⟩ from if_pos matched, wordless_ok]
    constructor
    · rintro rfl
      exact ⟨rfl, List.length_eq_zero_iff.mp matched.symm⟩
    · exact And.left
  · have written : Yields (fun _ => True) (fun t => t.text ≠ "") (leafFragment text params) := by
      unfold leafFragment
      rw [if_neg matched]
      match params with
      | [] | _ :: _ :: _ => exact .error trivial
      | [v] =>
          by_cases bare : Marker.count text = 0
          · simp only [if_pos bare]
            apply Yields.ok
            split_ifs <;> exact appended_not_empty text (by decide)
          · simpa only [if_neg bare] using .error trivial
    refine iff_of_false (not_wordless written) ?_
    rintro ⟨rfl, rfl⟩
    exact matched rfl

theorem solid_parts (wrap : Bool) (ns : List Node) :
    Yields (fun _ => True) (fun parts => parts.length = solidCount ns) (emitSolid wrap ns) := by
  induction ns with
  | nil => exact .ok rfl
  | cons n ns ih =>
      rw [emit_solid_cons, solid_count_cons]
      by_cases blank : n.isBlank
      · rw [if_pos blank, if_pos blank]
        exact ih
      · rw [if_neg blank, if_neg blank]
        have head : Yields (fun _ => True) (fun _ => True) (n.emit wrap) := by
          cases n.emit wrap with
          | error e => exact .error trivial
          | ok p => exact .ok trivial
        exact yields_bind head fun p _ _ => yields_map ih fun parts count => congrArg (· + 1) count

theorem several_solid {k : Combinator} {ns : List Node} (several : 1 < solidCount ns) (wrap : Bool) :
    ¬ Wordless ((⟨k, ns⟩ : Condition).emit wrap) := by
  apply not_wordless
  rw [Condition.emit, decide_eq_true several]
  refine yields_map (solid_parts _ ns) fun parts count => ?_
  rw [← count] at several
  cases wrap with
  | false => exact joined_not_empty several
  | true => exact parenthesized_not_empty _

-- A single part is written as it is asked for; in parentheses even an empty one is a text.
mutual
theorem node_wordless (n : Node) (solid : ¬ n.isBlank) (wrap : Bool) :
    Wordless (n.emit wrap) ↔ wrap = false ∧ n.leaves = [("", [])] := by
  match n with
  | .leaf text params =>
      rw [Node.emit, Node.leaves, List.singleton_inj, Prod.mk.injEq, wrapped_wordless, leaf_wordless]
  | .branch ⟨k, ns⟩ => exact nodes_wordless k ns solid wrap

theorem nodes_wordless (k : Combinator) (ns : List Node) (solid : ¬ allBlank ns) (wrap : Bool) :
    Wordless ((⟨k, ns⟩ : Condition).emit wrap) ↔ wrap = false ∧ leavesOf ns = [("", [])] := by
  match ns with
  | [] => exact absurd rfl solid
  | n :: ns =>
      rw [leavesOf]
      by_cases blank : n.isBlank
      · have rest : ¬ allBlank ns := fun none => solid (by rw [allBlank, blank, none]; rfl)
        have same := (branch_writes_as k (write_as_blank blank ns)).emit wrap
        rw [Node.emit, Node.emit] at same
        rw [← same, (node_blank_iff n).mp blank, List.nil_append]
        exact nodes_wordless k ns rest wrap
      · by_cases none : allBlank ns
        · rw [single_solid blank none, (all_blank_iff ns).mp none, List.append_nil]
          exact node_wordless n blank wrap
        · have several : 1 < solidCount (n :: ns) := by
            rw [all_blank_count, beq_iff_eq] at none
            rw [solid_count_cons, if_neg blank]
            omega
          refine iff_of_false (several_solid several wrap) ?_
          rintro ⟨-, single⟩
          obtain ⟨first, -⟩ | ⟨-, others⟩ := List.append_eq_singleton_iff.mp single
          · exact blank ((node_blank_iff n).mpr first)
          · exact none ((all_blank_iff ns).mpr others)
end

theorem text_empty_iff (c : Condition) : Wordless c.toFragment ↔ c.isBlank ∨ c.leaves = [("", [])] := by
  by_cases blank : c.isBlank
  · have written : c.toFragment = .ok .empty := blank_emit blank false
    rw [written]
    exact iff_of_true (wordless_ok.mpr rfl) (.inl blank)
  · have solid := node_wordless (.branch c) blank false
    rw [or_iff_right blank]
    exact solid.trans (and_iff_right rfl)

theorem headed_text {keyword : String} {c : Condition} {g : Fragment} (headed : Headed keyword c g)
    (some : c.leaves ≠ [("", [])]) :
    (Wordless c.toFragment ∧ g = .empty) ∨ ∃ t, c.toFragment = .ok t ∧ t.text ≠ "" ∧ g = .literal keyword ++ t := by
  cases headed with
  | absent none => exact .inl ⟨(text_empty_iff c).mpr (.inl ((blank_iff_no_leaves c).mpr none)), rfl⟩
  | @present t solid written =>
      refine .inr ⟨t, written, fun none => ?_, rfl⟩
      obtain blank | single := (text_empty_iff c).mp ⟨t, written, none⟩
      · exact solid ((blank_iff_no_leaves c).mp blank)
      · exact some single

theorem push_where_headed {c : Condition} {f after : Fragment} (pushed : Fragment.call (.pushWhere c) f = .ok () after) :
    ∃ g, Headed " WHERE " c g ∧ after = f.splice g := by
  rw [Fragment.call, Fragment.pushWhere] at pushed
  by_cases blank : c.isBlank
  · rw [if_pos blank] at pushed
    cases pushed
    exact ⟨.empty, .absent ((blank_iff_no_leaves c).mp blank), (append_empty f).symm⟩
  · rw [if_neg blank, Fragment.attempt, Fragment.pushCondition] at pushed
    cases written : c.toFragment with
    | error e =>
        rw [written] at pushed
        cases pushed
    | ok t =>
        rw [written] at pushed
        cases pushed
        refine ⟨_, .present (mt (blank_iff_no_leaves c).mpr blank) written, ?_⟩
        exact append_assoc f (.literal " WHERE ") t.untagged

theorem having_clause_written {q : Query} (select : q.kind = .select) {f : Fragment} (made : q.toFragment = .ok f) :
    ∃ head g tail, clauses q.beforeHaving = .ok head ∧ Headed " HAVING " (q.tree .having) g ∧
      clauses q.behindHaving = .ok tail ∧ f = head ++ (g ++ tail) := by
  have flat : q.toFragment = clauses (q.beforeHaving ++ conditionClause " HAVING " q.havingTree :: q.behindHaving) := by
    rw [Query.statement_flat (by rw [select]; rfl), Query.behindWhere, Query.beforeHaving, select, List.append_assoc]
    rfl
  rw [flat] at made
  obtain ⟨head, rest, before, others, rfl⟩ := clauses_append_ok made
  obtain ⟨g, tail, clause, behind, rfl⟩ := clauses_cons_ok others
  exact ⟨head, g, tail, before, condition_clause_headed clause, behind, rfl⟩

def Table.joinHead (t : Table) (kind : JoinKind) : Fragment :=
  .literal " " ++ .literal kind.keyword ++ .literal " " ++ t.fragment

-- What is written of a table behind the FROM list: nothing unless it is joined, and all but a CROSS JOIN with conditions.
inductive Query.JoinWritten (q : Query) (t : Table) : Fragment → Prop
  | unjoined : (∀ kind, t.role ≠ .joined kind) → q.JoinWritten t .empty
  | cross : t.role = .joined .cross → q.JoinWritten t (t.joinHead .cross)
  | on {kind : JoinKind} {g : Fragment} : t.role = .joined kind → kind ≠ .cross →
      (q.tree (.on t.aliasName)).leaves ≠ [] → Headed " ON " (q.tree (.on t.aliasName)) g →
      q.JoinWritten t (t.joinHead kind ++ g)

section Joins

variable {q : Query} {t : Table} {kind : JoinKind}

theorem on_clause_leafless {aliasName : String} (conditional : kind ≠ .cross)
    (none : (q.tree (.on aliasName)).leaves = []) : q.onClause kind aliasName = .error (.noJoinConditions aliasName) := by
  rw [Query.onClause, if_neg conditional]
  rw [Query.tree, Query.tree?] at none
  cases found : q.joinTree? aliasName with
  | none => rfl
  | some c =>
      rw [found] at none
      exact if_pos ((blank_iff_no_leaves c).mpr none)

theorem on_clause_headed {aliasName : String} {g : Fragment} (conditional : kind ≠ .cross)
    (made : q.onClause kind aliasName = .ok g) :
    (q.tree (.on aliasName)).leaves ≠ [] ∧ Headed " ON " (q.tree (.on aliasName)) g := by
  have some : (q.tree (.on aliasName)).leaves ≠ [] := by
    intro none
    rw [on_clause_leafless conditional none] at made
    cases made
  refine ⟨some, ?_⟩
  rw [Query.onClause, if_neg conditional] at made
  rw [Query.tree, Query.tree?] at some ⊢
  cases found : q.joinTree? aliasName with
  | none =>
      rw [found] at some
      exact absurd rfl some
  | some c =>
      rw [found] at made some
      have solid : ¬ c.isBlank := mt (blank_iff_no_leaves c).mp some
      simp only [if_neg solid] at made
      exact condition_clause_headed made

theorem joined_statement_flat (joins : q.kind = .select ∨ q.kind = .update) :
    q.toFragment = clauses (q.beforeJoins ++
      (q.tables.map q.joinClause ++ conditionClause " WHERE " q.whereTree :: q.behindWhere)) := by
  obtain select | update := joins
  · rw [Query.statement_flat (by rw [select]; rfl), Query.beforeWhere, Query.joinClauses, select, List.append_assoc]
  · rw [Query.statement_flat (by rw [update]; rfl), Query.beforeWhere, Query.joinClauses, update, List.append_assoc]

theorem join_written {j : Fragment} (made : q.joinClause t = .ok j) : q.JoinWritten t j := by
  rw [Query.joinClause] at made
  cases role : t.role with
  | main | listed =>
      rw [role] at made
      cases made
      refine .unjoined fun kind joined => ?_
      rw [role] at joined
      cases joined
  | joined kind =>
      rw [role] at made
      by_cases cross : kind = .cross
      · subst cross
        cases made
        change q.JoinWritten t (t.joinHead .cross ++ .empty)
        rw [append_empty]
        exact .cross role
      · obtain ⟨g, on, rfl⟩ := map_ok_inv made
        obtain ⟨some, headed⟩ := on_clause_headed cross on
        exact .on role cross some headed

theorem joins_written {f : Fragment} (joins : q.kind = .select ∨ q.kind = .update) (made : q.toFragment = .ok f) :
    ∃ head texts tail, clauses q.beforeJoins = .ok head ∧ List.Forall₂ q.JoinWritten q.tables texts ∧
      clauses (conditionClause " WHERE " q.whereTree :: q.behindWhere) = .ok tail ∧ f = head ++ (.concat texts ++ tail) := by
  rw [joined_statement_flat joins] at made
  obtain ⟨head, rest, before, others, rfl⟩ := clauses_append_ok made
  obtain ⟨joined, tail, each, behind, rfl⟩ := clauses_append_ok others
  obtain ⟨texts, listed, rfl⟩ := clauses_ok each
  have same : List.Forall₂ Eq (q.tables.map q.joinClause) (texts.map Except.ok) := by
    rw [listed]
    exact List.forall₂_refl _
  rw [List.forall₂_map_left_iff, List.forall₂_map_right_iff] at same
  exact ⟨head, texts, tail, before, same.imp fun _ _ => join_written, behind, rfl⟩

-- The first join without conditions is what the statement fails with, once all that is written before it can be.
theorem leafless_join_fails {before after : List Table} {head : Fragment} (joins : q.kind = .select ∨ q.kind = .update)
    (listed : q.tables = before ++ t :: after) (written : clauses (q.beforeJoins ++ before.map q.joinClause) = .ok head)
    (role : t.role = .joined kind) (conditional : kind ≠ .cross) (none : (q.tree (.on t.aliasName)).leaves = []) :
    q.toFragment = .error (.noJoinConditions t.aliasName) := by
  have refused : q.joinClause t = .error (.noJoinConditions t.aliasName) := by
    rw [Query.joinClause, role]
    simp only [on_clause_leafless conditional none]
    rfl
  rw [joined_statement_flat joins, listed, List.map_append, List.map_cons, refused]
  rw [List.append_assoc, ← List.append_assoc q.beforeJoins, List.cons_append, clauses_append, written]
  rfl

end Joins

-- What a statement that is written comes to at each of its trees.
structure Query.TreesWritten (q : Query) (f : Fragment) : Prop where
  filter : q.kind.filters → ∃ head g tail, clauses q.beforeWhere = .ok head ∧
    Headed " WHERE " (q.tree .where_) g ∧ clauses q.behindWhere = .ok tail ∧ f = head ++ (g ++ tail)
  having : q.kind = .select → ∃ head g tail, clauses q.beforeHaving = .ok head ∧
    Headed " HAVING " (q.tree .having) g ∧ clauses q.behindHaving = .ok tail ∧ f = head ++ (g ++ tail)
  joins : q.kind = .select ∨ q.kind = .update → ∃ head texts tail, clauses q.beforeJoins = .ok head ∧
    List.Forall₂ q.JoinWritten q.tables texts ∧
    clauses (conditionClause " WHERE " q.whereTree :: q.behindWhere) = .ok tail ∧ f = head ++ (.concat texts ++ tail)

theorem keywords_head_leaves (c : Condition) (q : Query) :
    (c.isBlank ↔ c.leaves = []) ∧ (Wordless c.toFragment ↔ c.isBlank ∨ c.leaves = [("", [])]) ∧
    (∀ (keyword : String) (g : Fragment), Headed keyword c g → c.leaves ≠ [("", [])] →
      (Wordless c.toFragment ∧ g = .empty) ∨ ∃ t, c.toFragment = .ok t ∧ t.text ≠ "" ∧ g = .literal keyword ++ t) ∧
    (∀ f after : Fragment, Fragment.call (.pushWhere c) f = .ok () after →
      ∃ g, Headed " WHERE " c g ∧ after = f.splice g) ∧
    (∀ f : Fragment, q.toFragment = .ok f → q.TreesWritten f) ∧
    ∀ (before after : List Table) (t : Table) (kind : JoinKind) (head : Fragment),
      q.kind = .select ∨ q.kind = .update → q.tables = before ++ t :: after → t.role = .joined kind → kind ≠ .cross →
      clauses (q.beforeJoins ++ before.map q.joinClause) = .ok head → (q.tree (.on t.aliasName)).leaves = [] →
      q.toFragment = .error (.noJoinConditions t.aliasName) := by
  refine ⟨blank_iff_no_leaves c, text_empty_iff c, fun _ _ => headed_text, fun _ _ => push_where_headed,
    fun f made => ?_, ?_⟩
  · refine ⟨fun filters => ?_, fun select => having_clause_written select made, fun joins => joins_written joins made⟩
    obtain ⟨head, g, tail, before, clause, behind, whole, -⟩ := where_clause_written filters made
    exact ⟨head, g, tail, before, clause, behind, whole⟩
  · intro before after t kind head joins listed role conditional written none
    exact leafless_join_fails joins listed written role conditional none

-- The filter is a nest of groups without leaves.
def userPosts : Query :=
  { Query.empty .select with
    items := [⟨none, .raw "users.id"⟩]
    tables := [⟨"users", .name "users", .main⟩, ⟨"posts", .name "posts", .joined .left⟩]
    main := some "users"
    joinTrees := [⟨"posts", ⟨.and, [.leaf "posts.user = users.id" []]⟩⟩]
    whereTree := some ⟨.or, [.branch (.empty .and), .branch ⟨.and, [.branch (.empty .or)]⟩]⟩
    havingTree := some ⟨.and, [.leaf "count(*)" [.int 5]]⟩ }

def userPostsForm : Fragment where
  text := "SELECT users.id FROM users LEFT JOIN posts ON posts.user = users.id HAVING count(*) = ?"
  params := [.int 5]
  tag := none

-- The same nest as the only condition of the join.
def strayPosts : Query :=
  { userPosts with joinTrees := [⟨"posts", ⟨.or, [.branch (.empty .and), .branch ⟨.and, [.branch (.empty .or)]⟩]⟩⟩] }

theorem user_posts_keywords_head_leaves :
    userPosts.toFragment = .ok userPostsForm ∧ userPosts.TreesWritten userPostsForm ∧
    (∃ t, (userPosts.tree .having).toFragment = .ok t ∧ t.text ≠ "" ∧
      (Fragment.ofText "DELETE FROM t").splice (.literal " WHERE " ++ t) = ⟨"DELETE FROM t WHERE count(*) = ?", [.int 5], none⟩) ∧
    strayPosts.toFragment = .error (.noJoinConditions "posts") := by
  obtain ⟨-, -, worded, pushed, written, -⟩ := keywords_head_leaves (userPosts.tree .having) userPosts
  obtain ⟨-, -, -, -, -, unjoined⟩ := keywords_head_leaves (userPosts.tree .having) strayPosts
  have made : userPosts.toFragment = .ok userPostsForm := by
    cbv
  have push : Fragment.call (.pushWhere (userPosts.tree .having)) (.ofText "DELETE FROM t") =
      .ok () ⟨"DELETE FROM t WHERE count(*) = ?", [.int 5], none⟩ := by
    cbv
  have counted : (userPosts.tree .having).leaves ≠ [("", [])] := by
    change [("count(*)", [Value.int 5])] ≠ [("", [])]
    simp
  have before : clauses (strayPosts.beforeJoins ++ [strayPosts.joinClause ⟨"users", .name "users", .main⟩]) =
      .ok ⟨"SELECT users.id FROM users", [], none⟩ := by
    cbv
  refine ⟨made, written userPostsForm made, ?_, ?_⟩
  · obtain ⟨g, headed, spliced⟩ := pushed _ _ push
    obtain ⟨-, rfl⟩ | ⟨t, own, some, rfl⟩ := worded _ g headed counted
    · exact absurd (congrArg Fragment.text spliced) (by decide)
    · exact ⟨t, own, some, spliced.symm⟩
  · exact unjoined [⟨"users", .name "users", .main⟩] [] _ .left _ (.inl rfl) rfl rfl (by decide) before rfl

-- An empty text without parameters is a leaf like any other, and so its tree is not blank.
theorem empty_leaf_not_blank : ¬ ∀ c : Condition, c.isBlank ↔ Wordless c.toFragment := by
  intro same
  have blank : (⟨.and, [.leaf "" []]⟩ : Condition).isBlank := (same ⟨.and, [.leaf "" []]⟩).mpr ⟨_, rfl, rfl⟩
  cases blank

end QueryBuilder

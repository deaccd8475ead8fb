import QueryBuilder.Proofs.NumberingSteps
import QueryBuilder.Proofs.Seams

/-!
Markers and parameters in the pieces of a statement.

Main statement: a condition tree, an item, a table, a row and a column list are written as fragments
with a parameter for each marker, whatever the fragments bound in them; the parameters are values
they were given, so what holds of the fragments in those holds in the written text.
-/

set_option autoImplicit false

namespace QueryBuilder

-- `Every ok` holds of what has no fragment at any depth that is not `ok`.
mutual
inductive Value.Every (ok : Fragment → Prop) : Value → Prop
  | atom {v : Value} : v.isAtom → Value.Every ok v
  | array {vs : List Value} : (∀ v ∈ vs, Value.Every ok v) → Value.Every ok (.array vs)
  | fragment {f : Fragment} : Fragment.Every ok f → Value.Every ok (.fragment f)
  | query {q : Query} : Query.Every ok q → Value.Every ok (.query q)

inductive Fragment.Every (ok : Fragment → Prop) : Fragment → Prop
  | mk {f : Fragment} : ok f → (∀ v ∈ f.params, Value.Every ok v) → Fragment.Every ok f

inductive Node.Every (ok : Fragment → Prop) : Node → Prop
  | leaf (text : String) {vs : List Value} : (∀ v ∈ vs, Value.Every ok v) → Node.Every ok (.leaf text vs)
  | branch {c : Condition} : Condition.Every ok c → Node.Every ok (.branch c)

inductive Condition.Every (ok : Fragment → Prop) : Condition → Prop
  | mk (combinator : Combinator) {ns : List Node} : (∀ n ∈ ns, Node.Every ok n) → Condition.Every ok ⟨combinator, ns⟩

inductive Expr.Every (ok : Fragment → Prop) : Expr → Prop
  | raw (text : String) : Expr.Every ok (.raw text)
  | value {v : Value} : Value.Every ok v → Expr.Every ok (.value v)

inductive TableSource.Every (ok : Fragment → Prop) : TableSource → Prop
  | name (s : String) : TableSource.Every ok (.name s)
  | fragment {f : Fragment} : Fragment.Every ok f → TableSource.Every ok (.fragment f)
  | query {q : Query} : Query.Every ok q → TableSource.Every ok (.query q)

inductive Query.Every (ok : Fragment → Prop) : Query → Prop
  | mk {q : Query}
      (items : ∀ item ∈ q.items, Expr.Every ok item.expr)
      (tables : ∀ t ∈ q.tables, TableSource.Every ok t.source)
      (joinTrees : ∀ aliasName c, q.joinTree? aliasName = some c → Condition.Every ok c)
      (whereTree : ∀ c, q.whereTree = some c → Condition.Every ok c)
      (groupBy : ∀ e ∈ q.groupBy, Expr.Every ok e)
      (havingTree : ∀ c, q.havingTree = some c → Condition.Every ok c)
      (orderBy : ∀ e ∈ q.orderBy, Expr.Every ok e)
      (setOperations : ∀ s ∈ q.setOperations, Value.Every ok s.operand)
      (source : ∀ r, q.source = some r → Query.Every ok r)
      (returning : ∀ item ∈ q.returning, Expr.Every ok item.expr)
      (data : ∀ c ∈ q.data, Value.Every ok c.value)
      (rows : ∀ row ∈ q.rows, ∀ c ∈ row, Value.Every ok c.value)
      (leading : ∀ f ∈ q.leading, Fragment.Every ok f)
      (trailing : ∀ f ∈ q.trailing, Fragment.Every ok f) :
      Query.Every ok q
end

def Error.isUnbalanced : Error → Bool
  | .missingParam .. | .extraParam .. => true
  | _ => false

abbrev Balances {α : Type} (good : α → Prop) (r : Except Error α) : Prop :=
  Yields (fun e => e.isUnbalanced = false) good r

variable {ok : Fragment → Prop}

theorem balances_parse (text : String) : Balances Ident.WellFormed (Ident.parse text) := by
  cases parsed : Ident.parse text with
  | ok i => exact .ok (parse_well_formed parsed)
  | error e =>
      cases read : Ident.read text.toList with
      | ok i =>
          rw [Ident.parse, read] at parsed
          cases parsed
      | error fault =>
          rw [Ident.parse, read] at parsed
          cases parsed
          exact .error rfl

theorem balances_quoted (name : String) : Balances Ident.WellFormed (Ident.quoted name) := by
  cases quoted : Ident.quoted name with
  | ok i => exact .ok (quoted_well_formed quoted)
  | error e =>
      unfold Ident.quoted at quoted
      split at quoted
      · cases quoted
        exact .error rfl
      · split at quoted
        · cases quoted
          exact .error rfl
        · cases quoted

theorem count_completed {text suffix : String} (bare : Marker.count text = 0)
    (led : suffix.toList.head? ≠ some '?') : Marker.count (text ++ suffix) = Marker.count suffix := by
  unfold Marker.count at *
  rw [String.toList_append, count_append fun meets => led meets.2, bare, Nat.zero_add]

-- A lone parameter brings one marker, and `IS NULL` drops the parameter with it.
theorem balances_leaf (text : String) {params : List Value} (each : ∀ v ∈ params, v.Every ok) :
    Balances (Fragment.Sound (Value.Every ok)) (leafFragment text params) := by
  by_cases matching : Marker.count text = params.length
  · simpa only [leafFragment, if_pos matching] using .ok ⟨matching, each⟩
  · unfold leafFragment
    rw [if_neg matching]
    match params with
    | [] => exact .error rfl
    | _ :: _ :: _ => exact .error rfl
    | [v] =>
        by_cases bare : Marker.count text = 0
        · have list : Marker.count (text ++ " IN (?)") = 1 := count_completed bare (by decide)
          have null : Marker.count (text ++ " IS NULL") = 0 := count_completed bare (by decide)
          have equal : Marker.count (text ++ " = ?") = 1 := count_completed bare (by decide)
          simp only [if_pos bare]
          apply Yields.ok
          by_cases listLike : v.isListLike
          · simpa only [if_pos listLike] using ⟨list, each⟩
          · by_cases isNull : v.isNull
            · simpa only [if_neg listLike, if_pos isNull] using ⟨null, by simp⟩
            · simpa only [if_neg listLike, if_neg isNull] using ⟨equal, each⟩
        · simpa only [if_neg bare] using .error rfl

mutual
theorem balances_node_emit (wrap : Bool) (n : Node) (every : n.Every ok) :
    Balances (Fragment.Sound (Value.Every ok)) (n.emit wrap) := by
  cases every with
  | leaf text each =>
      refine yields_map (balances_leaf text each) fun f sound => ?_
      cases wrap with
      | false => exact sound
      | true => exact (follows_parenthesized sound).toSound
  | branch below => exact balances_emit wrap _ below

theorem balances_emit (wrap : Bool) (c : Condition) (every : c.Every ok) :
    Balances (Fragment.Sound (Value.Every ok)) (c.emit wrap) := by
  cases every with
  | mk combinator each =>
      rw [Condition.emit]
      refine yields_map (balances_emit_solid _ _ each) fun fs sound => ?_
      have keyword : Keyword (" " ++ combinator.keyword ++ " ") := by cases combinator <;> decide
      have joined := sound_join_with keyword sound
      dsimp only
      split
      · exact (follows_parenthesized joined).toSound
      · exact joined

theorem balances_emit_solid (wrap : Bool) (ns : List Node) (each : ∀ n ∈ ns, n.Every ok) :
    Balances (fun fs => ∀ f ∈ fs, f.Sound (Value.Every ok)) (emitSolid wrap ns) := by
  match ns with
  | [] => exact .ok (by simp)
  | n :: ns =>
      have tail := balances_emit_solid wrap ns fun m member => each m (by simp [member])
      rw [emit_solid_cons]
      split
      · exact tail
      · exact yields_cons (balances_node_emit wrap n (each n (by simp))) tail
end

theorem balances_condition_clause {text : String} (keyword : Keyword text) {tree : Option Condition}
    (every : ∀ c, tree = some c → c.Every ok) :
    Balances (Fragment.Follows (Value.Every ok)) (conditionClause text tree) := by
  cases tree with
  | none => exact .ok follows_empty
  | some c =>
      by_cases blank : c.isBlank
      · simpa only [conditionClause, if_pos blank] using .ok follows_empty
      · rw [conditionClause, if_neg blank]
        apply yields_map (balances_emit false c (every c rfl))
        intro f sound
        exact follows_keyword keyword sound

theorem sound_value_fragment {v : Value} (every : v.Every ok) : (valueFragment v).Sound (Value.Every ok) := by
  have held := sound_hole every
  match v with
  | .bool true => exact (follows_literal "TRUE").toSound
  | .bool false => exact (follows_literal "FALSE").toSound
  | .query q => exact (follows_parenthesized held).toSound
  | .null | .int _ | .float _ | .text _ | .bytes _ | .json _ | .uuid _ | .date _ | .timestamp _ | .timestampTz _
  | .array _ | .param _ | .fragment _ => exact held

theorem sound_expr_fragment {e : Expr} (every : e.Every ok) : e.fragment.Sound (Value.Every ok) := by
  cases every with
  | raw text => exact (follows_literal text).toSound
  | value every => exact sound_value_fragment every

theorem balances_item_fragment {item : SelectItem} (every : item.expr.Every ok) :
    Balances (Fragment.Sound (Value.Every ok)) item.fragment := by
  have expr := sound_expr_fragment every
  obtain ⟨aliasName, e⟩ := item
  cases aliasName with
  | none => exact .ok expr
  | some name =>
      apply yields_map (balances_quoted name)
      intro i formed
      have opening : (e.fragment ++ .literal " AS ").Sound (Value.Every ok) := sound_before expr (follows_literal _)
      exact sound_before opening (follows_ident formed)

theorem balances_item_list {items : List SelectItem} (every : ∀ item ∈ items, item.expr.Every ok) :
    Balances (fun fs => ∀ f ∈ fs, f.Sound (Value.Every ok)) (itemList items) := by
  induction items with
  | nil => exact .ok (by simp)
  | cons item rest ih =>
      rw [item_list_cons]
      refine yields_cons (balances_item_fragment (every item (by simp))) ?_
      exact ih fun other member => every other (by simp [member])

theorem balances_items_fragment {items : List SelectItem}
    (every : ∀ item ∈ items, item.expr.Every ok) :
    Balances (Fragment.Sound (Value.Every ok)) (itemsFragment items) :=
  yields_map (balances_item_list every) fun _ sound => sound_join_with (by decide) sound

theorem follows_exprs_clause {text : String} (keyword : Keyword text) {exprs : List Expr}
    (every : ∀ e ∈ exprs, e.Every ok) : (exprsClause text exprs).Follows (Value.Every ok) := by
  by_cases none : exprs.isEmpty
  · simpa only [exprsClause, if_pos none] using follows_empty
  · have list : (exprsFragment exprs).Sound (Value.Every ok) := by
      apply sound_join_with (by decide)
      intro f member
      obtain ⟨e, inside, rfl⟩ := List.mem_map.mp member
      exact sound_expr_fragment (every e inside)
    simpa only [exprsClause, if_neg none] using follows_keyword keyword list

-- A name is escaped whatever it holds, and an alias stands behind a keyword.
theorem sound_table_fragment {t : Table} (every : t.source.Every ok) : t.fragment.Sound (Value.Every ok) := by
  have named : (Fragment.literal " AS " ++ Fragment.literal t.aliasName).Follows (Value.Every ok) :=
    follows_append (follows_literal _) (follows_literal _)
  obtain ⟨aliasName, source, role⟩ := t
  cases every with
  | name name =>
      have bare : (Fragment.literal name).Sound (Value.Every ok) := (follows_literal name).toSound
      by_cases same : name = aliasName
      · simpa only [Table.fragment, if_pos same] using bare
      · simpa only [Table.fragment, if_neg same] using sound_before bare named
  | fragment inner => exact sound_before (sound_hole (.fragment inner)) named
  | query inner =>
      have nested : (Fragment.hole (.query _)).Sound (Value.Every ok) := sound_hole (.query inner)
      exact sound_before (follows_parenthesized nested).toSound named

theorem sound_table_target {t : Table} (every : t.source.Every ok) : t.target.Sound (Value.Every ok) := by
  have whole := sound_table_fragment every
  obtain ⟨aliasName, source, role⟩ := t
  cases source with
  | name name => exact (follows_literal name).toSound
  | fragment f => exact whole
  | query q => exact whole

theorem row_get_mem {row : DataRow} {column : String} {v : Value} (found : row.get? column = some v) :
    ∃ c ∈ row, c.value = v := by
  obtain ⟨c, first, value⟩ := Option.map_eq_some_iff.mp found
  exact ⟨c, List.mem_of_find?_eq_some first, value⟩

theorem follows_tuple (names : List String) {row : DataRow} (every : ∀ c ∈ row, c.value.Every ok) :
    (DataRow.tuple names row).Follows (Value.Every ok) := by
  apply follows_parenthesized
  apply sound_join_with (by decide)
  intro f member
  obtain ⟨name, _, rfl⟩ := List.mem_map.mp member
  cases found : row.get? name with
  | none => exact (follows_literal "DEFAULT").toSound
  | some v =>
      obtain ⟨c, inside, rfl⟩ := row_get_mem found
      exact sound_value_fragment (every c inside)

theorem follows_column_list {columns : List Ident} (formed : ∀ i ∈ columns, i.WellFormed) :
    (columnList columns).Follows (Value.Every ok) := by
  by_cases none : columns.isEmpty
  · simpa only [columnList, if_pos none] using follows_empty
  · have list : (Fragment.joinWith ", " (columns.map .ident)).Sound (Value.Every ok) := by
      apply sound_join_with (by decide)
      intro f member
      obtain ⟨i, inside, rfl⟩ := List.mem_map.mp member
      exact (follows_ident (formed i inside)).toSound
    simpa only [columnList, if_neg none] using follows_parenthesized list

theorem balances_parse_columns (names : List String) :
    Balances (fun columns => ∀ i ∈ columns, Ident.WellFormed i) (parseColumns names) := by
  induction names with
  | nil => exact .ok (by simp)
  | cons name rest ih =>
      rw [parse_columns_cons]
      exact yields_cons (balances_parse name) ih

end QueryBuilder

import Mathlib.Data.List.Forall2
import QueryBuilder.Numbering
import QueryBuilder.Proofs.TreeShapes

/-!
Two queries of one shape, whose scalars differ.

`link` says which scalars may stand at corresponding positions. Null and the booleans show in the
text of a statement, so they are the same on both sides, as are all names, texts, aliases, lengths
and tags.
-/

set_option autoImplicit false

namespace QueryBuilder

-- The values that are bound as they are, whatever they hold. Null may become `IS NULL` and a
-- boolean may become `TRUE` or `FALSE`, so neither of them is one.
def Value.isScalar : Value → Bool
  | .int _ | .float _ | .text _ | .bytes _ | .json _ | .uuid _ | .date _ | .timestamp _ | .timestampTz _
  | .param _ => true
  | _ => false

mutual
inductive Value.Alike (link : Value → Value → Prop) : Value → Value → Prop
  | null : Value.Alike link .null .null
  | bool (b : Bool) : Value.Alike link (.bool b) (.bool b)
  | scalar {v w : Value} : v.isScalar → w.isScalar → link v w → Value.Alike link v w
  | array {vs ws : List Value} : List.Forall₂ (Value.Alike link) vs ws → Value.Alike link (.array vs) (.array ws)
  | fragment {f g : Fragment} : Fragment.Alike link f g → Value.Alike link (.fragment f) (.fragment g)
  | query {q r : Query} : Query.Alike link q r → Value.Alike link (.query q) (.query r)

inductive Fragment.Alike (link : Value → Value → Prop) : Fragment → Fragment → Prop
  | mk {f g : Fragment} : f.text = g.text → List.Forall₂ (Value.Alike link) f.params g.params → f.tag = g.tag →
      Fragment.Alike link f g

inductive Node.Alike (link : Value → Value → Prop) : Node → Node → Prop
  | leaf (text : String) {vs ws : List Value} : List.Forall₂ (Value.Alike link) vs ws →
      Node.Alike link (.leaf text vs) (.leaf text ws)
  | branch {c d : Condition} : Condition.Alike link c d → Node.Alike link (.branch c) (.branch d)

inductive Condition.Alike (link : Value → Value → Prop) : Condition → Condition → Prop
  | mk (combinator : Combinator) {ms ns : List Node} : List.Forall₂ (Node.Alike link) ms ns →
      Condition.Alike link ⟨combinator, ms⟩ ⟨combinator, ns⟩

inductive Expr.Alike (link : Value → Value → Prop) : Expr → Expr → Prop
  | raw (text : String) : Expr.Alike link (.raw text) (.raw text)
  | value {v w : Value} : Value.Alike link v w → Expr.Alike link (.value v) (.value w)

inductive SelectItem.Alike (link : Value → Value → Prop) : SelectItem → SelectItem → Prop
  | mk (aliasName : Option String) {a b : Expr} : Expr.Alike link a b →
      SelectItem.Alike link ⟨aliasName, a⟩ ⟨aliasName, b⟩

inductive TableSource.Alike (link : Value → Value → Prop) : TableSource → TableSource → Prop
  | name (s : String) : TableSource.Alike link (.name s) (.name s)
  | fragment {f g : Fragment} : Fragment.Alike link f g → TableSource.Alike link (.fragment f) (.fragment g)
  | query {q r : Query} : Query.Alike link q r → TableSource.Alike link (.query q) (.query r)

inductive Table.Alike (link : Value → Value → Prop) : Table → Table → Prop
  | mk (aliasName : String) (role : TableRole) {s t : TableSource} : TableSource.Alike link s t →
      Table.Alike link ⟨aliasName, s, role⟩ ⟨aliasName, t, role⟩

inductive SetOperation.Alike (link : Value → Value → Prop) : SetOperation → SetOperation → Prop
  | mk (operator : SetOperator) {v w : Value} : Value.Alike link v w →
      SetOperation.Alike link ⟨operator, v⟩ ⟨operator, w⟩

inductive Cell.Alike (link : Value → Value → Prop) : Cell → Cell → Prop
  | mk (column : String) {v w : Value} : Value.Alike link v w → Cell.Alike link ⟨column, v⟩ ⟨column, w⟩

-- The ON trees are a map from aliases, so they are compared alias by alias. A limit and an offset
-- are bound like any other integer.
inductive Query.Alike (link : Value → Value → Prop) : Query → Query → Prop
  | mk {q r : Query}
      (kind : q.kind = r.kind)
      (items : List.Forall₂ (SelectItem.Alike link) q.items r.items)
      (distinct : q.distinct = r.distinct)
      (tables : List.Forall₂ (Table.Alike link) q.tables r.tables)
      (main : q.main = r.main)
      (joinTrees : ∀ aliasName, Option.Rel (Condition.Alike link) (q.joinTree? aliasName) (r.joinTree? aliasName))
      (whereTree : Option.Rel (Condition.Alike link) q.whereTree r.whereTree)
      (groupBy : List.Forall₂ (Expr.Alike link) q.groupBy r.groupBy)
      (havingTree : Option.Rel (Condition.Alike link) q.havingTree r.havingTree)
      (orderBy : List.Forall₂ (Expr.Alike link) q.orderBy r.orderBy)
      (limit : Option.Rel (fun m n => link (.int m) (.int n)) q.limit r.limit)
      (offset : Option.Rel (fun m n => link (.int m) (.int n)) q.offset r.offset)
      (setOperations : List.Forall₂ (SetOperation.Alike link) q.setOperations r.setOperations)
      (columns : q.columns = r.columns)
      (source : Option.Rel (Query.Alike link) q.source r.source)
      (returning : List.Forall₂ (SelectItem.Alike link) q.returning r.returning)
      (data : List.Forall₂ (Cell.Alike link) q.data r.data)
      (rows : List.Forall₂ (List.Forall₂ (Cell.Alike link)) q.rows r.rows)
      (leading : List.Forall₂ (Fragment.Alike link) q.leading r.leading)
      (trailing : List.Forall₂ (Fragment.Alike link) q.trailing r.trailing) :
      Query.Alike link q r
end

variable {link : Value → Value → Prop}

theorem option_rel_cases {α β : Type} {rel : α → β → Prop} {o : Option α} {p : Option β} (related : Option.Rel rel o p) :
    (o = none ∧ p = none) ∨ ∃ a b, o = some a ∧ p = some b ∧ rel a b := by
  cases related with
  | none => exact .inl ⟨rfl, rfl⟩
  | some both => exact .inr ⟨_, _, rfl, rfl, both⟩

theorem alike_of_text (text : String) : Fragment.Alike link (.ofText text) (.ofText text) :=
  .mk rfl .nil rfl

theorem alike_literal (text : String) : Fragment.Alike link (.literal text) (.literal text) :=
  alike_of_text _

theorem alike_ident (i : Ident) : Fragment.Alike link (.ident i) (.ident i) :=
  alike_of_text _

theorem alike_hole {v w : Value} (alike : v.Alike link w) : Fragment.Alike link (.hole v) (.hole w) :=
  .mk rfl (.cons alike .nil) rfl

theorem alike_untagged {f g : Fragment} (alike : f.Alike link g) : f.untagged.Alike link g.untagged := by
  obtain ⟨text, params, _⟩ := alike
  exact .mk text params rfl

theorem alike_append {f g f' g' : Fragment} (left : f.Alike link f') (right : g.Alike link g') :
    (f ++ g).Alike link (f' ++ g') := by
  obtain ⟨leftText, leftParams, leftTag⟩ := left
  obtain ⟨rightText, rightParams, rightTag⟩ := right
  refine .mk ?_ (List.rel_append leftParams rightParams) ?_
  · exact congrArg₂ (· ++ ·) leftText rightText
  · exact congrArg₂ (fun a b : Option String => a <|> b) leftTag rightTag

theorem alike_concat {fs gs : List Fragment} (alike : List.Forall₂ (Fragment.Alike link) fs gs) :
    (Fragment.concat fs).Alike link (Fragment.concat gs) := by
  induction alike with
  | nil => exact alike_of_text ""
  | cons head _ ih => exact alike_append head ih

theorem alike_join_with (sep : String) {fs gs : List Fragment}
    (alike : List.Forall₂ (Fragment.Alike link) fs gs) :
    (Fragment.joinWith sep fs).Alike link (Fragment.joinWith sep gs) := by
  induction alike with
  | nil => exact alike_of_text ""
  | cons head tail ih =>
      cases tail with
      | nil => exact head
      | cons second rest => exact alike_append (alike_append head (alike_literal sep)) ih

theorem alike_parenthesized {f g : Fragment} (alike : f.Alike link g) :
    (parenthesized f).Alike link (parenthesized g) :=
  alike_append (alike_append (alike_literal "(") alike) (alike_literal ")")

theorem agree_clauses {rs ss : List (Except Error Fragment)}
    (agree : List.Forall₂ (Agree (Fragment.Alike link)) rs ss) :
    Agree (Fragment.Alike link) (clauses rs) (clauses ss) := by
  induction agree with
  | nil => exact .ok (alike_of_text "")
  | cons head _ ih =>
      rw [clauses_cons, clauses_cons]
      exact agree_bind head fun _ _ _ first => agree_map ih fun _ _ rest => alike_append first rest

-- A lone parameter completes its leaf by its shape, and alike values have one shape.
theorem alike_shape {v w : Value} (alike : v.Alike link w) : v.isListLike = w.isListLike ∧ v.isNull = w.isNull := by
  cases alike with
  | scalar left right _ => cases v <;> cases w <;> simp_all [Value.isScalar, Value.isListLike, Value.isNull]
  | null | bool | array | fragment | query => exact ⟨rfl, rfl⟩

theorem agree_leaf_fragment (text : String) {vs ws : List Value} (alike : List.Forall₂ (Value.Alike link) vs ws) :
    Agree (Fragment.Alike link) (leafFragment text vs) (leafFragment text ws) := by
  have length := alike.length_eq
  unfold leafFragment
  rw [length]
  by_cases matching : Marker.count text = ws.length
  · rw [if_pos matching, if_pos matching]
    exact .ok (.mk rfl alike rfl)
  · rw [if_neg matching, if_neg matching]
    cases alike with
    | nil => exact .error _
    | cons head tail =>
        cases tail with
        | cons => exact .error _
        | nil =>
            obtain ⟨listLike, null⟩ := alike_shape head
            dsimp only
            by_cases bare : Marker.count text = 0
            · rw [if_pos bare, if_pos bare, listLike, null]
              refine .ok ?_
              split
              · exact .mk rfl (.cons head .nil) rfl
              · split
                · exact .mk rfl .nil rfl
                · exact .mk rfl (.cons head .nil) rfl
            · rw [if_neg bare, if_neg bare]
              exact .error _

-- Leaves of one text, with parameters that are alike.
def LeavesAlike (link : Value → Value → Prop) (s : String) (vs : List Value) (t : String) (ws : List Value) : Prop :=
  s = t ∧ List.Forall₂ (Value.Alike link) vs ws

mutual
theorem alike_node_matches (m n : Node) (alike : m.Alike link n) : m.Matches (LeavesAlike link) n := by
  cases alike with
  | leaf text params => exact .leaf ⟨rfl, params⟩
  | branch below => exact .branch (alike_matches _ _ below)

theorem alike_matches (c d : Condition) (alike : c.Alike link d) : c.Matches (LeavesAlike link) d := by
  cases alike with
  | mk combinator children => exact .mk combinator (alike_all_match _ _ children)

theorem alike_all_match (ms ns : List Node) (alike : List.Forall₂ (Node.Alike link) ms ns) :
    List.Forall₂ (Node.Matches (LeavesAlike link)) ms ns := by
  cases alike with
  | nil => exact .nil
  | cons head tail => exact .cons (alike_node_matches _ _ head) (alike_all_match _ _ tail)
end

theorem alike_blank (c d : Condition) (alike : c.Alike link d) : c.isBlank = d.isBlank :=
  matching_blank c d (alike_matches c d alike)

theorem alike_congruence : TreeCongruence (LeavesAlike link) (Fragment.Alike link) where
  leaf := by
    rintro s _ vs ws ⟨rfl, params⟩
    exact agree_leaf_fragment s params
  enclosed := alike_parenthesized
  joined _ _ _ := alike_join_with _

theorem agree_emit (wrap : Bool) (c d : Condition) (alike : c.Alike link d) :
    Agree (Fragment.Alike link) (c.emit wrap) (d.emit wrap) :=
  matching_emit alike_congruence wrap c d (alike_matches c d alike)

theorem agree_condition_clause (keyword : String) {c d : Option Condition}
    (alike : Option.Rel (Condition.Alike link) c d) :
    Agree (Fragment.Alike link) (conditionClause keyword c) (conditionClause keyword d) := by
  cases alike with
  | none => exact .ok (alike_of_text "")
  | some tree =>
      rw [conditionClause, conditionClause, alike_blank _ _ tree]
      split
      · exact .ok (alike_of_text "")
      · exact agree_map (agree_emit false _ _ tree) fun f g related => alike_append (alike_literal keyword) related

end QueryBuilder

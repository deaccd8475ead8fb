import Mathlib.Data.List.Forall2
import QueryBuilder.Proofs.Sequencing

/-!
Condition trees of one shape.

Main statement: where the leaves of two trees are written as related fragments, so are the trees, for
any relation that parentheses and connectives keep.
-/

set_option autoImplicit false

namespace QueryBuilder

mutual
inductive Node.Matches (rel : String → List Value → String → List Value → Prop) : Node → Node → Prop
  | leaf {s t : String} {vs ws : List Value} : rel s vs t ws → Node.Matches rel (.leaf s vs) (.leaf t ws)
  | branch {c d : Condition} : Condition.Matches rel c d → Node.Matches rel (.branch c) (.branch d)

inductive Condition.Matches (rel : String → List Value → String → List Value → Prop) : Condition → Condition → Prop
  | mk (combinator : Combinator) {ms ns : List Node} : List.Forall₂ (Node.Matches rel) ms ns →
      Condition.Matches rel ⟨combinator, ms⟩ ⟨combinator, ns⟩
end

variable {rel : String → List Value → String → List Value → Prop}

mutual
theorem matches_node_refl (refl : ∀ s vs, rel s vs s vs) (n : Node) : n.Matches rel n := by
  match n with
  | .leaf text params => exact .leaf (refl text params)
  | .branch c => exact .branch (matches_refl refl c)

theorem matches_refl (refl : ∀ s vs, rel s vs s vs) (c : Condition) : c.Matches rel c := by
  match c with
  | ⟨combinator, children⟩ => exact .mk combinator (matches_all_refl refl children)

theorem matches_all_refl (refl : ∀ s vs, rel s vs s vs) (ns : List Node) : List.Forall₂ (Node.Matches rel) ns ns := by
  match ns with
  | [] => exact .nil
  | n :: ns => exact .cons (matches_node_refl refl n) (matches_all_refl refl ns)
end

mutual
theorem matching_node_blank (m n : Node) (shape : m.Matches rel n) : m.isBlank = n.isBlank := by
  cases shape with
  | leaf _ => rfl
  | branch below => exact matching_blank _ _ below

theorem matching_blank (c d : Condition) (shape : c.Matches rel d) : c.isBlank = d.isBlank := by
  cases shape with
  | mk combinator children => exact matching_all_blank _ _ children

theorem matching_all_blank (ms ns : List Node) (shape : List.Forall₂ (Node.Matches rel) ms ns) :
    allBlank ms = allBlank ns := by
  cases shape with
  | nil => rfl
  | cons head tail => rw [allBlank, allBlank, matching_node_blank _ _ head, matching_all_blank _ _ tail]
end

theorem matching_solid_count {ms ns : List Node} (shape : List.Forall₂ (Node.Matches rel) ms ns) :
    solidCount ms = solidCount ns := by
  have solid : List.Forall₂ (Node.Matches rel) (ms.filter fun n => !n.isBlank) (ns.filter fun n => !n.isBlank) :=
    List.rel_filter (fun m n related => by simp [matching_node_blank m n related]) shape
  exact solid.length_eq

-- Related leaves are written the same, and whatever a tree writes around them keeps that.
structure TreeCongruence (rel : String → List Value → String → List Value → Prop)
    (same : Fragment → Fragment → Prop) : Prop where
  leaf : ∀ {s t : String} {vs ws : List Value}, rel s vs t ws → Agree same (leafFragment s vs) (leafFragment t ws)
  enclosed : ∀ {f g : Fragment}, same f g → same (parenthesized f) (parenthesized g)
  joined : ∀ (k : Combinator) {fs gs : List Fragment}, List.Forall₂ same fs gs →
    same (Fragment.joinWith (" " ++ k.keyword ++ " ") fs) (Fragment.joinWith (" " ++ k.keyword ++ " ") gs)

variable {same : Fragment → Fragment → Prop}

mutual
theorem matching_node_emit (congruence : TreeCongruence rel same) (wrap : Bool) (m n : Node) (shape : m.Matches rel n) :
    Agree same (m.emit wrap) (n.emit wrap) := by
  cases shape with
  | leaf related =>
      refine agree_map (congruence.leaf related) fun f g written => ?_
      cases wrap with
      | false => exact written
      | true => exact congruence.enclosed written
  | branch below => exact matching_emit congruence wrap _ _ below

theorem matching_emit (congruence : TreeCongruence rel same) (wrap : Bool) (c d : Condition) (shape : c.Matches rel d) :
    Agree same (c.emit wrap) (d.emit wrap) := by
  cases shape with
  | mk combinator children =>
      rw [Condition.emit, Condition.emit, matching_solid_count children]
      refine agree_map (matching_emit_solid congruence _ _ _ children) fun fs gs related => ?_
      have joined := congruence.joined combinator related
      dsimp only
      split
      · exact congruence.enclosed joined
      · exact joined

theorem matching_emit_solid (congruence : TreeCongruence rel same) (wrap : Bool) (ms ns : List Node)
    (shape : List.Forall₂ (Node.Matches rel) ms ns) :
    Agree (List.Forall₂ same) (emitSolid wrap ms) (emitSolid wrap ns) := by
  cases shape with
  | nil => exact .ok .nil
  | cons head tail =>
      rw [emit_solid_cons, emit_solid_cons, matching_node_blank _ _ head]
      split
      · exact matching_emit_solid congruence wrap _ _ tail
      · exact agree_cons (matching_node_emit congruence wrap _ _ head) (matching_emit_solid congruence wrap _ _ tail)
end

end QueryBuilder

import QueryBuilder.Proofs.AllFragments
import QueryBuilder.Proofs.BoundPieces
import QueryBuilder.Proofs.FailedSteps

/-!
Markers and parameters of the leaves of a condition tree.

Main statement: a tree is written exactly when each leaf, at any depth, has a parameter for each marker,
or a single parameter and no marker. It fails with the first leaf from the left that has neither. The
text of a tree that is written has as many markers as parameters, and the parameters are those of the
leaves from left to right, but for the nulls that became `IS NULL`.
-/

set_option autoImplicit false

namespace QueryBuilder

def LeafCounts (text : String) (params : List Value) : Prop :=
  Marker.count text = params.length ∨ (Marker.count text = 0 ∧ params.length = 1)

instance (text : String) (params : List Value) : Decidable (LeafCounts text params) :=
  inferInstanceAs (Decidable (_ ∨ _))

theorem leaf_failure_of_counts {text : String} {params : List Value} (counts : LeafCounts text params) :
    leafFailure (text, params) = none := by
  unfold leafFailure leafFragment
  by_cases matching : Marker.count text = params.length
  · rw [if_pos matching]
    rfl
  · obtain ⟨bare, single⟩ := counts.resolve_left matching
    obtain ⟨v, rfl⟩ := List.length_eq_one_iff.mp single
    simp only [if_neg matching, if_pos bare]
    rfl

theorem leaf_failure_of_not_counts {text : String} {params : List Value} (counts : ¬ LeafCounts text params) :
    leafFailure (text, params) = some (.badParamCount text (Marker.count text) params.length) := by
  obtain ⟨unmatched, incomplete⟩ := not_or.mp counts
  unfold leafFailure leafFragment
  rw [if_neg unmatched]
  match params with
  | [] | _ :: _ :: _ => rfl
  | [v] =>
      have marked : Marker.count text ≠ 0 := fun bare => incomplete ⟨bare, rfl⟩
      simp only [if_neg marked]
      rfl

theorem leaf_failure_none_iff (leaf : String × List Value) : leafFailure leaf = none ↔ LeafCounts leaf.1 leaf.2 := by
  constructor
  · intro written
    by_contra counts
    rw [leaf_failure_of_not_counts counts] at written
    cases written
  · exact leaf_failure_of_counts

theorem leaf_failure_some_iff (leaf : String × List Value) (e : Error) :
    leafFailure leaf = some e ↔
      ¬ LeafCounts leaf.1 leaf.2 ∧ e = .badParamCount leaf.1 (Marker.count leaf.1) leaf.2.length := by
  by_cases counts : LeafCounts leaf.1 leaf.2
  · rw [leaf_failure_of_counts counts]
    exact iff_of_false nofun fun refused => refused.1 counts
  · rw [leaf_failure_of_not_counts counts, Option.some.injEq, and_iff_right counts, eq_comm]

mutual
theorem node_bound_leaves (n : Node) : n.bound = n.leaves.flatMap fun leaf => leafBound leaf.1 leaf.2 := by
  match n with
  | .leaf text params => exact (List.flatMap_singleton _ _).symm
  | .branch c => exact condition_bound_leaves c

theorem condition_bound_leaves (c : Condition) : c.bound = c.leaves.flatMap fun leaf => leafBound leaf.1 leaf.2 := by
  match c with
  | ⟨_, children⟩ => exact nodes_bound_leaves children

theorem nodes_bound_leaves (ns : List Node) :
    nodesBound ns = (leavesOf ns).flatMap fun leaf => leafBound leaf.1 leaf.2 := by
  match ns with
  | [] => rfl
  | n :: ns => rw [nodesBound, leavesOf, List.flatMap_append, node_bound_leaves n, nodes_bound_leaves ns]
end

-- Nothing is asked of the fragments that are bound in the leaves: their markers are not those of the tree.
theorem written_tree_balanced {c : Condition} {f : Fragment} (written : c.toFragment = .ok f) : f.Balanced := by
  have every : c.Every fun _ => True :=
    condition_every_of_below (fun v _ => value_every_of_all (fun _ => trivial) v) c (Nat.le_refl _)
  exact (good_of_ok (balances_emit false c every) written).balanced

theorem tree_written_iff_leaves_count (c : Condition) :
    ((∃ f, c.toFragment = .ok f) ↔ ∀ leaf ∈ c.leaves, LeafCounts leaf.1 leaf.2) ∧
    (∀ e, c.toFragment = .error e ↔
      ∃ before leaf after, c.leaves = before ++ leaf :: after ∧ (∀ l ∈ before, LeafCounts l.1 l.2) ∧
        ¬ LeafCounts leaf.1 leaf.2 ∧ e = .badParamCount leaf.1 (Marker.count leaf.1) leaf.2.length) ∧
    ∀ f, c.toFragment = .ok f → Marker.count f.text = f.params.length ∧
      f.params = c.leaves.flatMap fun leaf => leafBound leaf.1 leaf.2 := by
  have failure : failure? c.toFragment = c.leaves.findSome? leafFailure := condition_failure false c
  refine ⟨?_, fun e => ?_, fun f written => ⟨written_tree_balanced written, ?_⟩⟩
  · rw [← failure_none, failure, List.findSome?_eq_none_iff]
    simp only [leaf_failure_none_iff]
  · rw [← failure_some, failure, List.findSome?_eq_some_iff]
    simp only [leaf_failure_none_iff, leaf_failure_some_iff]
    constructor
    · rintro ⟨before, leaf, after, split, ⟨counts, refused⟩, earlier⟩
      exact ⟨before, leaf, after, split, earlier, counts, refused⟩
    · rintro ⟨before, leaf, after, split, earlier, counts, refused⟩
      exact ⟨before, leaf, after, split, ⟨counts, refused⟩, earlier⟩
  · have bound := good_of_ok (condition_binds false c) written
    exact bound.trans (condition_bound_leaves c)

-- A backslash ends the first leaf and a marker begins the second, and there is a branch without leaves.
-- Of the two nulls one becomes `IS NULL` and one has a marker.
def seamedSearch : Condition :=
  ⟨.and, [.leaf "x = \\" [], .branch ⟨.or, [.leaf "? = y" [.int 1], .branch (.empty .and), .leaf "z" [.null]]⟩,
    .leaf "id" [.array [.int 2, .int 3]], .leaf "'a\\?' <> ?" [.null]]⟩

theorem seamed_search_written :
    let f : Fragment :=
      ⟨"(x = \\) AND ((? = y) OR (z IS NULL)) AND (id IN (?)) AND ('a\\?' <> ?)",
        [.int 1, .array [.int 2, .int 3], .null], none⟩
    seamedSearch.toFragment = .ok f ∧ (∀ leaf ∈ seamedSearch.leaves, LeafCounts leaf.1 leaf.2) ∧
      Marker.count f.text = f.params.length ∧
      f.params = seamedSearch.leaves.flatMap fun leaf => leafBound leaf.1 leaf.2 := by
  intro f
  have written : seamedSearch.toFragment = .ok f := by
    cbv
  obtain ⟨iff, -, totals⟩ := tree_written_iff_leaves_count seamedSearch
  exact ⟨written, iff.mp ⟨f, written⟩, totals f written⟩

end QueryBuilder

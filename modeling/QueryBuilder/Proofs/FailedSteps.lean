import QueryBuilder.Fragment.Call
import QueryBuilder.Proofs.Parenthesization

/-!
Fragment steps that fail.

Main statement: a step that fails leaves text, parameters and tag as they were, but for the keyword
of a WHERE clause, which stays when the tree behind it fails. A tree fails with the error of its first
leaf that cannot be written, however deep that stands and whatever was written before it.
-/

set_option autoImplicit false

namespace QueryBuilder

-- What a computation fails with, if it fails.
def failure? {α : Type} : Except Error α → Option Error
  | .error e => some e
  | .ok _ => none

section Failure

variable {α β : Type}

theorem failure_map (r : Except Error α) (f : α → β) : failure? (r.map f) = failure? r := by
  cases r <;> rfl

theorem failure_cons (r : Except Error α) (rs : Except Error (List α)) :
    failure? (r.bind fun a => rs.map fun as => a :: as) = (failure? r).or (failure? rs) := by
  cases r with
  | error e => rfl
  | ok a => exact failure_map rs _

theorem failure_none {r : Except Error α} : failure? r = none ↔ ∃ a, r = .ok a := by
  cases r <;> simp [failure?]

theorem failure_some {r : Except Error α} {e : Error} : failure? r = some e ↔ r = .error e := by
  cases r <;> simp [failure?]

end Failure

def leafFailure (leaf : String × List Value) : Option Error :=
  failure? (leafFragment leaf.1 leaf.2)

theorem blank_node_emits {wrap : Bool} {n : Node} (blank : n.isBlank) : failure? (n.emit wrap) = none := by
  cases n with
  | leaf text params => cases blank
  | branch c =>
      rw [Node.emit, blank_emit blank]
      rfl

-- A node without leaves is passed over by the walk, and writes nothing that could fail either.
mutual
theorem node_failure (wrap : Bool) (n : Node) : failure? (n.emit wrap) = n.leaves.findSome? leafFailure := by
  cases n with
  | leaf text params =>
      rw [Node.emit, failure_map, Node.leaves, List.findSome?_singleton]
      rfl
  | branch c => exact condition_failure wrap c

theorem condition_failure (wrap : Bool) (c : Condition) :
    failure? (c.emit wrap) = c.leaves.findSome? leafFailure := by
  obtain ⟨k, children⟩ := c
  rw [Condition.emit, failure_map]
  exact nodes_failure _ children

theorem nodes_failure (wrap : Bool) (ns : List Node) :
    failure? (emitSolid wrap ns) = (leavesOf ns).findSome? leafFailure := by
  match ns with
  | [] => rfl
  | n :: ns =>
      have head := node_failure wrap n
      have tail := nodes_failure wrap ns
      rw [emit_solid_cons, leavesOf, List.findSome?_append, ← head, ← tail]
      by_cases blank : n.isBlank
      · rw [if_pos blank, blank_node_emits blank, Option.none_or]
      · rw [if_neg blank, failure_cons]
end

theorem to_fragment_failed {tree : Condition} {e : Error} (failed : tree.toFragment = .error e) :
    tree.leaves.findSome? leafFailure = some e := by
  rw [← condition_failure false]
  exact failure_some.mpr failed

theorem push_keyword (f : Fragment) : f.push " WHERE " = ⟨f.text ++ " WHERE ", f.params, f.tag⟩ := by
  have written : Fragment.literal " WHERE " = ⟨" WHERE ", [], none⟩ := rfl
  rw [Fragment.push, written]
  change (⟨f.text ++ " WHERE ", f.params ++ [], f.tag <|> none⟩ : Fragment) = _
  simp

section Calls

variable {call : FragmentCall} {f after : Fragment} {e : Error}

theorem map_failed {α β : Type} {r : Except Error α} {g : α → β} (failed : r.map g = .error e) : r = .error e := by
  cases r with
  | error other =>
      cases failed
      rfl
  | ok a => cases failed

theorem attempt_failed {r : Fragment → Except Error Fragment} (failed : Fragment.attempt r f = .error e after) :
    after = f ∧ r f = .error e := by
  rw [Fragment.attempt] at failed
  cases made : r f with
  | error other =>
      rw [made] at failed
      cases failed
      exact ⟨rfl, rfl⟩
  | ok g =>
      rw [made] at failed
      cases failed

theorem push_where_failed {tree : Condition} (failed : Fragment.pushWhere tree f = .error e after) :
    after = f.push " WHERE " ∧ tree.toFragment = .error e := by
  rw [Fragment.pushWhere] at failed
  by_cases blank : tree.isBlank
  · rw [if_pos blank] at failed
    cases failed
  · rw [if_neg blank] at failed
    have ⟨kept, refused⟩ := attempt_failed failed
    exact ⟨kept, map_failed refused⟩

-- What a failing call can be: a name that is no identifier, or a tree.
theorem call_failed (failed : Fragment.call call f = .error e after) :
    (after = f ∧ ((∃ name, call = .pushIdent name ∧ Ident.parse name = .error e) ∨
      (∃ name, call = .pushQuoted name ∧ Ident.quoted name = .error e) ∨
      ∃ tree, call = .pushCondition tree ∧ tree.toFragment = .error e)) ∨
    after = f.push " WHERE " ∧ ∃ tree, call = .pushWhere tree ∧ tree.toFragment = .error e := by
  cases call with
  | push | pushBind | pushBindList | append | limit | offset | bind | tag => cases failed
  | pushIdent name =>
      simp only [Fragment.call] at failed
      have ⟨kept, refused⟩ := attempt_failed failed
      exact .inl ⟨kept, .inl ⟨name, rfl, map_failed refused⟩⟩
  | pushQuoted name =>
      simp only [Fragment.call] at failed
      have ⟨kept, refused⟩ := attempt_failed failed
      exact .inl ⟨kept, .inr (.inl ⟨name, rfl, map_failed refused⟩)⟩
  | pushCondition tree =>
      simp only [Fragment.call] at failed
      have ⟨kept, refused⟩ := attempt_failed failed
      exact .inl ⟨kept, .inr (.inr ⟨tree, rfl, map_failed refused⟩)⟩
  | pushWhere tree =>
      have ⟨left, refused⟩ := push_where_failed failed
      exact .inr ⟨left, tree, rfl, refused⟩

end Calls

-- A run of calls that fails leaves what the calls before the failing one made, but for that keyword.
theorem failed_calls_leave (calls : List FragmentCall) (f after : Fragment) (e : Error)
    (failed : Fragment.callAll calls f = .error e after) :
    ∃ before call rest made, calls = before ++ call :: rest ∧ Fragment.callAll before f = .ok () made ∧
      Fragment.call call made = .error e after ∧ (after = made ∨ after = made.push " WHERE ") := by
  induction calls generalizing f with
  | nil => cases failed
  | cons c cs ih =>
      simp only [Fragment.callAll] at failed
      cases first : Fragment.call c f with
      | error other left =>
          rw [first] at failed
          cases failed
          have kept : after = f ∨ after = f.push " WHERE " :=
            (call_failed first).elim (fun same => .inl same.1) (fun keyword => .inr keyword.1)
          exact ⟨[], c, cs, f, rfl, rfl, first, kept⟩
      | ok _ next =>
          rw [first] at failed
          obtain ⟨before, call, rest, made, rfl, run, last⟩ := ih next failed
          refine ⟨c :: before, call, rest, made, rfl, ?_, last⟩
          simpa only [Fragment.callAll, first] using run

theorem failed_step_leaves (call : FragmentCall) (f after : Fragment) (e : Error)
    (failed : Fragment.call call f = .error e after) :
    after.params = f.params ∧ after.tag = f.tag ∧
    ((∀ tree, call ≠ .pushWhere tree) → after.text = f.text) ∧
    (∀ tree, call = .pushWhere tree → after.text = f.text ++ " WHERE ") ∧
    ∀ tree, call = .pushCondition tree ∨ call = .pushWhere tree → tree.leaves.findSome? leafFailure = some e := by
  obtain ⟨rfl, ⟨name, rfl, -⟩ | ⟨name, rfl, -⟩ | ⟨tree, rfl, refused⟩⟩ | ⟨rfl, tree, rfl, refused⟩ :=
    call_failed failed
  · exact ⟨rfl, rfl, fun _ => rfl, nofun, nofun⟩
  · exact ⟨rfl, rfl, fun _ => rfl, nofun, nofun⟩
  · refine ⟨rfl, rfl, fun _ => rfl, nofun, fun other same => ?_⟩
    rcases same with same | same <;> cases same
    exact to_fragment_failed refused
  · rw [push_keyword]
    refine ⟨rfl, rfl, fun another => absurd rfl (another tree), fun _ _ => rfl, fun other same => ?_⟩
    rcases same with same | same <;> cases same
    exact to_fragment_failed refused

-- Its last leaf, in a group, cannot be written; the two before it can.
def lateFailing : Condition :=
  ⟨.and, [.leaf "a = ?" [.int 1], .branch ⟨.or, [.leaf "b" [.int 2], .leaf "c" [.int 3, .int 4]]⟩]⟩

theorem late_failing_condition_leaves :
    let purge : Fragment := ⟨"DELETE FROM t WHERE x = ? AND ", [.int 5], some "purge"⟩
    Fragment.call (.pushCondition lateFailing) purge = .error (.badParamCount "c" 0 2) purge ∧
    lateFailing.leaves.findSome? leafFailure = some (.badParamCount "c" 0 2) := by
  intro purge
  have failed : Fragment.call (.pushCondition lateFailing) purge = .error (.badParamCount "c" 0 2) purge := by
    cbv
  exact ⟨failed, (failed_step_leaves _ purge purge _ failed).2.2.2.2 lateFailing (.inl rfl)⟩

theorem failed_where_leaves_keyword :
    ¬ ∀ (call : FragmentCall) (f after : Fragment) (e : Error), Fragment.call call f = .error e after → after = f := by
  intro keeps
  have kept := keeps (.pushWhere lateFailing) (.ofText "DELETE FROM t") (.ofText "DELETE FROM t WHERE ")
    (.badParamCount "c" 0 2) (by cbv)
  have text := congrArg Fragment.text kept
  revert text
  decide

end QueryBuilder

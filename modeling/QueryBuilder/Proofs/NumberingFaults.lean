import QueryBuilder.Proofs.NumberingSteps
import QueryBuilder.Proofs.Sequencing

/-!
What a numbering fails with.

Main statement: a walk over a value that fails has met, at some depth, an empty array, a text whose
markers are not as many as its parameters, or a sub-query that has no statement.
-/

set_option autoImplicit false

namespace QueryBuilder

-- The markers of a text have run out, or its parameters.
inductive Uneven (sql : String) : Error → Prop
  | missing (position : Nat) : Uneven sql (.missingParam sql position)
  | extra (placeholders unused : Nat) : Uneven sql (.extraParam sql placeholders unused)

inductive Value.Fails : Value → Error → Prop
  | empty (sql : String) (position : Nat) : Fails (.array []) (.emptyArray sql position)
  | item {vs : List Value} {v : Value} {e : Error} (member : v ∈ vs) (inner : v.Fails e) : Fails (.array vs) e
  | uneven {f : Fragment} {e : Error} (unbalanced : Marker.count f.text ≠ f.params.length) (fault : Uneven f.text e) :
      Fails (.fragment f) e
  | param {f : Fragment} {v : Value} {e : Error} (member : v ∈ f.params) (inner : v.Fails e) : Fails (.fragment f) e
  | unwritten {q : Query} {e : Error} (failed : q.toFragment = .error e) : Fails (.query q) e
  | written {q : Query} {f : Fragment} {e : Error} (made : q.toFragment = .ok f) (inner : Fails (.fragment f) e) :
      Fails (.query q) e

-- What the induction on a value gives of it.
def FailsByPart (v : Value) : Prop :=
  ∀ (sql : String) (position : Nat) (done : Compiled), Yields v.Fails (fun _ => True) (numberValue sql position done v)

theorem number_text_fails (sql : String) (text : List Char) (position : Nat) (done : Compiled) {vs : List Value}
    (each : ∀ v ∈ vs, FailsByPart v) :
    Yields (fun e => (∃ v ∈ vs, v.Fails e) ∨ Marker.countChars text ≠ vs.length ∧ Uneven sql e) (fun _ => True)
      (numberText sql position done text vs) := by
  induction text using text_induct generalizing position done vs with
  | done =>
      cases vs with
      | nil =>
          rw [number_text_done]
          exact .ok trivial
      | cons v rest =>
          rw [number_text_unused]
          exact .error (.inr ⟨(Nat.succ_ne_zero _).symm, .extra _ _⟩)
  | escape rest ih =>
      rw [number_text_escape, Marker.countChars]
      exact ih position _ each
  | marker rest ih =>
      rw [count_marker]
      cases vs with
      | nil =>
          rw [number_text_missing]
          exact .error (.inr ⟨Nat.succ_ne_zero _, .missing _⟩)
      | cons v others =>
          rw [number_text_marker]
          refine yields_bind (yields_weaken (each v (by simp) sql _ _) fun e fails => .inl ⟨v, by simp, fails⟩)
            fun next _ _ => ?_
          refine yields_weaken (ih (position + 1) next fun w member => each w (by simp [member])) fun e fails => ?_
          obtain ⟨w, member, inner⟩ | ⟨unbalanced, uneven⟩ := fails
          · exact .inl ⟨w, by simp [member], inner⟩
          · exact .inr ⟨fun same => unbalanced (Nat.succ.inj same), uneven⟩
  | plain c rest notMarker alone ih =>
      rw [number_text_plain _ _ _ _ notMarker alone, count_plain notMarker alone]
      exact ih position _ each

theorem number_items_fail (sql : String) (position : Nat) (done : Compiled) {vs : List Value}
    (each : ∀ v ∈ vs, FailsByPart v) :
    Yields (fun e => ∃ v ∈ vs, v.Fails e) (fun _ => True) (numberItems sql position done vs) := by
  induction vs generalizing done with
  | nil =>
      rw [number_items_nil]
      exact .ok trivial
  | cons v rest ih =>
      rw [number_items_cons]
      refine yields_bind (yields_weaken (each v (by simp) sql _ _) fun e fails => ⟨v, by simp, fails⟩)
        fun next _ _ => ?_
      refine yields_weaken (ih next fun w member => each w (by simp [member])) fun e fails => ?_
      obtain ⟨w, member, inner⟩ := fails
      exact ⟨w, by simp [member], inner⟩

theorem number_fragment_fails {f : Fragment} (done : Compiled) (each : ∀ v ∈ f.params, FailsByPart v) :
    Yields (Value.fragment f).Fails (fun _ => True) (numberText f.text 0 done f.text.toList f.params) := by
  refine yields_weaken (number_text_fails f.text f.text.toList 0 done each) fun e fails => ?_
  obtain ⟨v, member, inner⟩ | ⟨unbalanced, uneven⟩ := fails
  · exact .param member inner
  · exact .uneven unbalanced uneven

theorem number_query_fails {q : Query} (done : Compiled)
    (each : ∀ f, q.toFragment = .ok f → ∀ v ∈ f.params, FailsByPart v) :
    Yields (Value.query q).Fails (fun _ => True)
      (q.toFragment.bind fun f => numberText f.text 0 done f.text.toList f.params) := by
  cases made : q.toFragment with
  | error e => exact .error (.unwritten made)
  | ok f => exact yields_weaken (number_fragment_fails done (each f made)) fun e => .written made

theorem number_value_fails (v : Value) : FailsByPart v := by
  induction v using value_induct with
  | atom v atom =>
      intro sql position done
      rw [number_value_atom _ _ _ atom]
      exact .ok trivial
  | array vs each =>
      intro sql position done
      cases vs with
      | nil =>
          rw [number_value_empty]
          exact .error (.empty sql position)
      | cons v rest =>
          rw [number_value_array]
          refine yields_bind (yields_weaken (each v (by simp) sql _ _) fun e => .item List.mem_cons_self)
            fun next _ _ => ?_
          refine yields_weaken (number_items_fail sql position next fun w member => each w (by simp [member]))
            fun e fails => ?_
          obtain ⟨w, member, inner⟩ := fails
          exact .item (List.mem_cons_of_mem _ member) inner
  | fragment f each =>
      intro sql position done
      rw [number_value_fragment]
      exact number_fragment_fails done each
  | query q each =>
      intro sql position done
      rw [number_value_query]
      exact number_query_fails done each

theorem compile_fragment_fails (f : Fragment) : Yields (Value.fragment f).Fails (fun _ => True) f.compile :=
  number_fragment_fails .empty fun v _ => number_value_fails v

theorem compile_query_fails (q : Query) : Yields (Value.query q).Fails (fun _ => True) q.compile := by
  rw [query_compile_bind]
  exact number_query_fails .empty fun f _ v _ => number_value_fails v

end QueryBuilder

import QueryBuilder.Numbering
import QueryBuilder.Proofs.Markers

/-!
The walk of the numbering, one equation for each step, and the two inductions it goes by: over the
text between one marker and the next, and over the values that are put in the place of markers.
-/

set_option autoImplicit false

namespace QueryBuilder

-- An atom takes a number of its own; any other value is replaced by what it holds.
def Value.isAtom : Value → Bool
  | .array _ | .fragment _ | .query _ => false
  | _ => true

-- The statement of a sub-query is made of smaller values, so it may be walked as a part of it.
theorem value_induct {P : Value → Prop} (atom : ∀ v, v.isAtom → P v)
    (array : ∀ vs, (∀ v ∈ vs, P v) → P (.array vs))
    (fragment : ∀ f : Fragment, (∀ v ∈ f.params, P v) → P (.fragment f))
    (query : ∀ q : Query, (∀ f, q.toFragment = .ok f → ∀ v ∈ f.params, P v) → P (.query q)) (value : Value) :
    P value := by
  match value with
  | .null | .bool _ | .int _ | .float _ | .text _ | .bytes _ | .json _ | .uuid _ | .date _ | .timestamp _
  | .timestampTz _ | .param _ => exact atom _ rfl
  | .array vs =>
      refine array vs fun v member => ?_
      have smaller := List.sizeOf_lt_of_mem member
      exact value_induct atom array fragment query v
  | .fragment f =>
      refine fragment f fun v member => ?_
      have smaller := List.sizeOf_lt_of_mem member
      exact value_induct atom array fragment query v
  | .query q =>
      refine query q fun f compiled v member => ?_
      have smaller := q.below_toFragment f compiled v member
      exact value_induct atom array fragment query v
termination_by sizeOf value
decreasing_by
  · simp only [Value.array.sizeOf_spec]
    omega
  · cases f
    simp only [Value.fragment.sizeOf_spec, Fragment.mk.sizeOf_spec] at smaller ⊢
    omega
  · simp only [Value.query.sizeOf_spec]
    omega

theorem number_text_done (sql : String) (position : Nat) (done : Compiled) :
    numberText sql position done [] [] = .ok done := by
  rw [numberText]

theorem number_text_unused (sql : String) (position : Nat) (done : Compiled) (v : Value) (vs : List Value) :
    numberText sql position done [] (v :: vs) = .error (.extraParam sql position (vs.length + 1)) := by
  rw [numberText]
  · rfl
  · intro none
    cases none

theorem number_text_escape (sql : String) (position : Nat) (done : Compiled) (rest : List Char) (vs : List Value) :
    numberText sql position done ('\\' :: '?' :: rest) vs = numberText sql position (done.pushChar '?') rest vs := by
  rw [numberText]

theorem number_text_missing (sql : String) (position : Nat) (done : Compiled) (rest : List Char) :
    numberText sql position done ('?' :: rest) [] = .error (.missingParam sql (position + 1)) := by
  rw [numberText]

theorem number_text_marker (sql : String) (position : Nat) (done : Compiled) (rest : List Char) (v : Value)
    (vs : List Value) :
    numberText sql position done ('?' :: rest) (v :: vs) =
      (numberValue sql (position + 1) done v).bind fun next => numberText sql (position + 1) next rest vs := by
  rw [numberText]
  cases numberValue sql (position + 1) done v <;> rfl

theorem number_text_plain (sql : String) (position : Nat) (done : Compiled) {c : Char} {rest : List Char}
    (vs : List Value) (notMarker : c ≠ '?') (alone : ¬ Escapes c rest) :
    numberText sql position done (c :: rest) vs = numberText sql position (done.pushChar c) rest vs := by
  rw [numberText]
  · intro tail backslash next
    exact alone ⟨backslash, by rw [next]; rfl⟩
  · intro _ isMarker
    exact notMarker isMarker
  · intro _ _ _ isMarker
    exact notMarker isMarker

theorem number_value_empty (sql : String) (position : Nat) (done : Compiled) :
    numberValue sql position done (.array []) = .error (.emptyArray sql position) := by
  rw [numberValue]

theorem number_value_array (sql : String) (position : Nat) (done : Compiled) (v : Value) (vs : List Value) :
    numberValue sql position done (.array (v :: vs)) =
      (numberValue sql position done v).bind fun next => numberItems sql position next vs := by
  rw [numberValue]
  cases numberValue sql position done v <;> rfl

theorem number_value_fragment (sql : String) (position : Nat) (done : Compiled) (f : Fragment) :
    numberValue sql position done (.fragment f) = numberText f.text 0 done f.text.toList f.params := by
  rw [numberValue]

theorem number_value_query (sql : String) (position : Nat) (done : Compiled) (q : Query) :
    numberValue sql position done (.query q) =
      q.toFragment.bind fun f => numberText f.text 0 done f.text.toList f.params := by
  rw [numberValue]
  cases q.toFragment <;> rfl

theorem number_value_atom (sql : String) (position : Nat) (done : Compiled) {v : Value} (atom : v.isAtom) :
    numberValue sql position done v = .ok (done.pushParam v) := by
  cases v with
  | array | fragment | query => cases atom
  | _ => rw [numberValue] <;> intros <;> contradiction

theorem number_items_nil (sql : String) (position : Nat) (done : Compiled) :
    numberItems sql position done [] = .ok done := by
  rw [numberItems]

theorem number_items_cons (sql : String) (position : Nat) (done : Compiled) (v : Value) (vs : List Value) :
    numberItems sql position done (v :: vs) =
      (numberValue sql position (done.pushText ", ") v).bind fun next => numberItems sql position next vs := by
  rw [numberItems]
  cases numberValue sql position (done.pushText ", ") v <;> rfl

theorem condition_compile_bind (c : Condition) : c.compile = c.toFragment.bind Fragment.compile := by
  unfold Condition.compile
  cases c.toFragment <;> rfl

theorem query_compile_bind (q : Query) : q.compile = q.toFragment.bind Fragment.compile := by
  unfold Query.compile
  cases q.toFragment <;> rfl

end QueryBuilder

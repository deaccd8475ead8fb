import QueryBuilder.Query.Size

/-!
From marker form to the final form: markers become `$1`, `$2`, and so on, and the parameters one
flat list.

One walk goes over the text from left to right. A `\?` becomes a literal question mark. A marker
takes the next parameter: an array gives its elements with commas between them, a fragment or a
sub-query is put in with its own parameters, and any other value is the next number.
-/

set_option autoImplicit false

namespace QueryBuilder

namespace Compiled

def empty : Compiled := ⟨"", []⟩

def pushChar (c : Compiled) (char : Char) : Compiled :=
  ⟨c.sql.push char, c.params⟩

def pushText (c : Compiled) (text : String) : Compiled :=
  ⟨c.sql ++ text, c.params⟩

def pushParam (c : Compiled) (v : Value) : Compiled :=
  ⟨c.sql ++ "$" ++ toString (c.params.length + 1), c.params ++ [v]⟩

end Compiled

-- The size of the largest value, which bounds a walk over them.
noncomputable def largest : List Value → Nat
  | [] => 0
  | v :: vs => max (sizeOf v) (largest vs)

theorem largest_lt {n : Nat} (pos : 0 < n) {vs : List Value} (h : ∀ v ∈ vs, sizeOf v < n) : largest vs < n := by
  induction vs with
  | nil => exact pos
  | cons v rest ih =>
      have head := h v (by simp)
      have tail := ih fun w member => h w (List.mem_cons_of_mem _ member)
      simp only [largest]
      omega

theorem largest_lt_of_sizeOf {n : Nat} {vs : List Value} (h : sizeOf vs ≤ n) (pos : 0 < n) : largest vs < n :=
  largest_lt pos fun _ member => Nat.lt_of_lt_of_le (List.sizeOf_lt_of_mem member) h

theorem lex_of_le {a b c d : Nat} (le : a ≤ b) (lt : c < d) :
    Prod.Lex (· < ·) (· < ·) (a, c) (b, d) := by
  rcases Nat.lt_or_eq_of_le le with less | rfl
  · exact .left _ _ less
  · exact .right _ lt

mutual
-- Walks the rest of a text with the parameters left for it. `sql` and `position` are the whole
-- text and the number of markers met, for the errors.
def numberText (sql : String) (position : Nat) (done : Compiled) (text : List Char) (params : List Value) :
    Except Error Compiled :=
  match text, params with
  | [], [] => .ok done
  | [], unused => .error (.extraParam sql position unused.length)
  | '\\' :: '?' :: rest, vs => numberText sql position (done.pushChar '?') rest vs
  | '?' :: _, [] => .error (.missingParam sql (position + 1))
  | '?' :: rest, v :: vs =>
      match numberValue sql (position + 1) done v with
      | .error e => .error e
      | .ok done => numberText sql (position + 1) done rest vs
  | c :: rest, vs => numberText sql position (done.pushChar c) rest vs
termination_by (largest params, text.length + 1)
decreasing_by
  · exact lex_of_le (Nat.le_refl _) (by simp only [List.length_cons]; omega)
  · exact lex_of_le (Nat.le_max_left _ _) (by omega)
  · exact lex_of_le (Nat.le_max_right _ _) (by simp only [List.length_cons]; omega)
  · exact lex_of_le (Nat.le_refl _) (by simp only [List.length_cons]; omega)

def numberValue (sql : String) (position : Nat) (done : Compiled) (value : Value) : Except Error Compiled :=
  match value with
  | .array [] => .error (.emptyArray sql position)
  | .array (v :: vs) =>
      match numberValue sql position done v with
      | .error e => .error e
      | .ok done => numberItems sql position done vs
  | .fragment f => numberText f.text 0 done f.text.toList f.params
  | .query q =>
      match _h : q.toFragment with
      | .error e => .error e
      | .ok f => numberText f.text 0 done f.text.toList f.params
  | scalar => .ok (done.pushParam scalar)
termination_by (sizeOf value, 0)
decreasing_by
  · refine .left _ _ ?_
    simp only [Value.array.sizeOf_spec, List.cons.sizeOf_spec]
    omega
  · refine .left _ _ (largest_lt_of_sizeOf ?_ ?_) <;>
      simp only [Value.array.sizeOf_spec, List.cons.sizeOf_spec] <;> omega
  · refine .left _ _ (largest_lt_of_sizeOf ?_ ?_)
    · cases f
      simp only [Value.fragment.sizeOf_spec, Fragment.mk.sizeOf_spec]
      omega
    · simp only [Value.fragment.sizeOf_spec]
      omega
  · refine .left _ _ (largest_lt ?_ fun v member => ?_) <;> simp only [Value.query.sizeOf_spec]
    · omega
    · have := q.below_toFragment f _h v member
      omega

def numberItems (sql : String) (position : Nat) (done : Compiled) (values : List Value) : Except Error Compiled :=
  match values with
  | [] => .ok done
  | v :: vs =>
      match numberValue sql position (done.pushText ", ") v with
      | .error e => .error e
      | .ok done => numberItems sql position done vs
termination_by (largest values, values.length + 1)
decreasing_by
  · exact lex_of_le (Nat.le_max_left _ _) (by omega)
  · exact lex_of_le (Nat.le_max_right _ _) (by simp only [List.length_cons]; omega)
end

-- Numbers the markers of a text and flattens its parameters.
def number (sql : String) (params : List Value) : Except Error Compiled :=
  numberText sql 0 .empty sql.toList params

def Fragment.compile (f : Fragment) : Except Error Compiled :=
  number f.text f.params

def Condition.compile (c : Condition) : Except Error Compiled :=
  match c.toFragment with
  | .error e => .error e
  | .ok f => f.compile

-- The final form, worked out anew.
def Query.compile (q : Query) : Except Error Compiled :=
  match q.toFragment with
  | .error e => .error e
  | .ok f => f.compile

end QueryBuilder

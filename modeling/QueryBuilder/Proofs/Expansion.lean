import Mathlib.Data.List.Forall2
import QueryBuilder.Proofs.NumberingSteps

/-!
The numbering as the second of two passes.

Main statement: `number` gives what is had by first putting the expansion of every parameter in the
place of its marker, and then counting the scalars of the flat list that comes out.
-/

set_option autoImplicit false

namespace QueryBuilder

inductive Piece where
  | char (c : Char)
  | scalar (v : Value)

def literalPieces (text : String) : List Piece :=
  text.toList.map .char

-- The first pass over one text: every marker gives way to the next expansion, and none may be left.
def fill : List Char → List (List Piece) → Option (List Piece)
  | [], [] => some []
  | [], _ :: _ => none
  | '\\' :: '?' :: rest, expansions => (fill rest expansions).map fun pieces => .char '?' :: pieces
  | '?' :: _, [] => none
  | '?' :: rest, expansion :: expansions => (fill rest expansions).map fun pieces => expansion ++ pieces
  | c :: rest, expansions => (fill rest expansions).map fun pieces => .char c :: pieces

def separated : List (List Piece) → List Piece
  | [] => []
  | [expansion] => expansion
  | expansion :: rest => expansion ++ literalPieces ", " ++ separated rest

-- What a value is to the text around it. No number is given here, and no state is carried along.
def Value.expand (value : Value) : Option (List Piece) :=
  match value with
  | .array vs => if vs.isEmpty then none else ((vs.map Value.expand).mapM id).map separated
  | .fragment f => ((f.params.map Value.expand).mapM id).bind (fill f.text.toList)
  | .query q =>
      match _compiled : q.toFragment with
      | .error _ => none
      | .ok f => ((f.params.attach.map fun v => Value.expand v.val).mapM id).bind (fill f.text.toList)
  | scalar => some [.scalar scalar]
termination_by sizeOf value
decreasing_by
  · rename_i member
    have smaller := List.sizeOf_lt_of_mem member
    simp only [Value.array.sizeOf_spec]
    omega
  · rename_i member
    have smaller := List.sizeOf_lt_of_mem member
    cases f
    simp only [Value.fragment.sizeOf_spec, Fragment.mk.sizeOf_spec] at smaller ⊢
    omega
  · have smaller := q.below_toFragment f _compiled v.val v.property
    simp only [Value.query.sizeOf_spec]
    omega

def expandAll (values : List Value) : Option (List (List Piece)) :=
  (values.map Value.expand).mapM id

def expandText (text : String) (params : List Value) : Option (List Piece) :=
  (expandAll params).bind (fill text.toList)

def scalars : List Piece → List Value
  | [] => []
  | .char _ :: rest => scalars rest
  | .scalar v :: rest => v :: scalars rest

-- The second pass: the first scalar of the list is printed as number `k`.
def render (k : Nat) : List Piece → String
  | [] => ""
  | .char c :: rest => String.singleton c ++ render k rest
  | .scalar _ :: rest => "$" ++ toString k ++ render (k + 1) rest

theorem fill_plain {c : Char} {rest : List Char} (notMarker : c ≠ '?') (alone : ¬ Escapes c rest)
    (expansions : List (List Piece)) :
    fill (c :: rest) expansions = (fill rest expansions).map fun pieces => .char c :: pieces := by
  rw [fill]
  · intro tail backslash next
    exact alone ⟨backslash, by rw [next]; rfl⟩
  · intro _ isMarker
    exact notMarker isMarker
  · intro _ _ _ isMarker
    exact notMarker isMarker

-- The steps that fill a text.
inductive Fills : List Char → List (List Piece) → List Piece → Prop
  | done : Fills [] [] []
  | escape {rest : List Char} {es : List (List Piece)} {pieces : List Piece} (behind : Fills rest es pieces) :
      Fills ('\\' :: '?' :: rest) es (.char '?' :: pieces)
  | marker {rest : List Char} (e : List Piece) {es : List (List Piece)} {pieces : List Piece}
      (behind : Fills rest es pieces) : Fills ('?' :: rest) (e :: es) (e ++ pieces)
  | plain {c : Char} {rest : List Char} {es : List (List Piece)} {pieces : List Piece} (notMarker : c ≠ '?')
      (alone : ¬ Escapes c rest) (behind : Fills rest es pieces) : Fills (c :: rest) es (.char c :: pieces)

theorem fills_of_fill {text : List Char} {es : List (List Piece)} {pieces : List Piece}
    (filled : fill text es = some pieces) : Fills text es pieces := by
  induction text using text_induct generalizing es pieces with
  | done =>
      cases es with
      | nil =>
          cases filled
          exact .done
      | cons e es => cases filled
  | escape rest ih =>
      rw [fill] at filled
      obtain ⟨tail, later, rfl⟩ := Option.map_eq_some_iff.mp filled
      exact .escape (ih later)
  | marker rest ih =>
      cases es with
      | nil => cases filled
      | cons e es =>
          rw [fill] at filled
          obtain ⟨tail, later, rfl⟩ := Option.map_eq_some_iff.mp filled
          exact .marker e (ih later)
  | plain c rest notMarker alone ih =>
      rw [fill_plain notMarker alone] at filled
      obtain ⟨tail, later, rfl⟩ := Option.map_eq_some_iff.mp filled
      exact .plain notMarker alone (ih later)

theorem expand_all_nil : expandAll [] = some [] :=
  rfl

theorem expand_all_cons (v : Value) (vs : List Value) :
    expandAll (v :: vs) = v.expand.bind fun p => (expandAll vs).map fun ps => p :: ps := by
  unfold expandAll
  rw [List.map_cons, List.mapM_cons]
  cases v.expand with
  | none => rfl
  | some p => cases (vs.map Value.expand).mapM id <;> rfl

theorem expand_array (vs : List Value) :
    Value.expand (.array vs) = if vs.isEmpty then none else (expandAll vs).map separated := by
  rw [Value.expand]
  rfl

theorem expand_fragment (f : Fragment) : Value.expand (.fragment f) = expandText f.text f.params := by
  rw [Value.expand]
  rfl

theorem expand_query (q : Query) :
    Value.expand (.query q) = q.toFragment.toOption.bind fun f => expandText f.text f.params := by
  rw [Value.expand]
  cases compiled : q.toFragment with
  | error e => rfl
  | ok f =>
      have each : f.params.attach.map (fun v => v.val.expand) = f.params.map Value.expand :=
        List.attach_map_val
      simp only [each]
      rfl

theorem expand_atom {v : Value} (atom : v.isAtom) : v.expand = some [.scalar v] := by
  cases v with
  | array | fragment | query => cases atom
  | _ => rw [Value.expand] <;> intros <;> contradiction

theorem expand_all_related {vs : List Value} {es : List (List Piece)} (all : expandAll vs = some es) :
    List.Forall₂ (fun v e => v.expand = some e) vs es := by
  induction vs generalizing es with
  | nil =>
      cases all
      exact .nil
  | cons v vs ih =>
      rw [expand_all_cons] at all
      obtain ⟨e, first, others⟩ := Option.bind_eq_some_iff.mp all
      obtain ⟨rest, later, rfl⟩ := Option.map_eq_some_iff.mp others
      exact .cons first (ih later)

-- What holds of a value and its expansion, by the ways a value expands. A sub-query expands as its statement does.
theorem expand_induct {P : Value → List Piece → Prop} (atom : ∀ v, v.isAtom → P v [.scalar v])
    (array : ∀ vs es, List.Forall₂ P vs es → P (.array vs) (separated es))
    (fragment : ∀ (f : Fragment) es pieces, List.Forall₂ P f.params es → Fills f.text.toList es pieces →
      P (.fragment f) pieces)
    (query : ∀ (q : Query) f pieces, q.toFragment = .ok f → P (.fragment f) pieces → P (.query q) pieces)
    (v : Value) (pieces : List Piece) (expanded : v.expand = some pieces) : P v pieces := by
  have related {vs : List Value} (each : ∀ v ∈ vs, ∀ e, v.expand = some e → P v e) {es : List (List Piece)}
      (all : expandAll vs = some es) : List.Forall₂ P vs es := by
    refine ((List.forall₂_and_left vs es).mpr ⟨each, expand_all_related all⟩).imp fun v e both => ?_
    exact both.1 e both.2
  have text {f : Fragment} (each : ∀ v ∈ f.params, ∀ e, v.expand = some e → P v e) {pieces : List Piece}
      (expanded : expandText f.text f.params = some pieces) : P (.fragment f) pieces := by
    obtain ⟨es, all, filled⟩ := Option.bind_eq_some_iff.mp expanded
    exact fragment f es pieces (related each all) (fills_of_fill filled)
  induction v using value_induct generalizing pieces with
  | atom v isAtom =>
      rw [expand_atom isAtom] at expanded
      cases expanded
      exact atom v isAtom
  | array vs each =>
      rw [expand_array] at expanded
      by_cases none : vs.isEmpty
      · rw [if_pos none] at expanded
        cases expanded
      · rw [if_neg none] at expanded
        obtain ⟨es, all, rfl⟩ := Option.map_eq_some_iff.mp expanded
        exact array vs es (related each all)
  | fragment f each =>
      rw [expand_fragment] at expanded
      exact text each expanded
  | query q each =>
      rw [expand_query] at expanded
      obtain ⟨f, compiled, inside⟩ := Option.bind_eq_some_iff.mp expanded
      cases made : q.toFragment with
      | error e =>
          rw [made] at compiled
          cases compiled
      | ok g =>
          rw [made] at compiled
          cases compiled
          exact query q f pieces made (text (each f made) inside)

theorem scalars_append (ps qs : List Piece) : scalars (ps ++ qs) = scalars ps ++ scalars qs := by
  induction ps with
  | nil => rfl
  | cons p ps ih => cases p <;> simp [scalars, ih]

theorem render_append (k : Nat) (ps qs : List Piece) :
    render k (ps ++ qs) = render k ps ++ render (k + (scalars ps).length) qs := by
  induction ps generalizing k with
  | nil => simp [render, scalars]
  | cons p ps ih =>
      cases p with
      | char c => simp [render, scalars, ih, String.append_assoc]
      | scalar v =>
          have count : k + 1 + (scalars ps).length = k + (scalars (.scalar v :: ps)).length := by
            simp only [scalars, List.length_cons]
            omega
          simp [render, ih, count, String.append_assoc]

theorem scalars_literal (cs : List Char) : scalars (cs.map .char) = [] := by
  induction cs with
  | nil => rfl
  | cons c cs ih => simpa [scalars] using ih

theorem render_literal (k : Nat) (cs : List Char) : render k (cs.map .char) = String.ofList cs := by
  induction cs with
  | nil => rfl
  | cons c cs ih =>
      rw [List.map_cons, render, ih, String.singleton_eq_ofList, ← String.ofList_append, List.singleton_append]

-- A walk that has done `c` and goes on over pieces.
def Compiled.extend (c : Compiled) (pieces : List Piece) : Compiled :=
  ⟨c.sql ++ render (c.params.length + 1) pieces, c.params ++ scalars pieces⟩

theorem extend_nil (c : Compiled) : c.extend [] = c := by
  simp [Compiled.extend, render, scalars]

theorem extend_append (c : Compiled) (ps qs : List Piece) : c.extend (ps ++ qs) = (c.extend ps).extend qs := by
  have count : c.params.length + 1 + (scalars ps).length = (c.params ++ scalars ps).length + 1 := by
    rw [List.length_append]
    omega
  simp only [Compiled.extend, render_append, scalars_append, count, String.append_assoc, List.append_assoc]

theorem extend_char (c : Compiled) (char : Char) : c.extend [.char char] = c.pushChar char := by
  simp [Compiled.extend, Compiled.pushChar, render, scalars]

theorem extend_literal (c : Compiled) (text : String) : c.extend (literalPieces text) = c.pushText text := by
  simp [Compiled.extend, Compiled.pushText, literalPieces, render_literal, scalars_literal]

theorem extend_scalar (c : Compiled) (v : Value) : c.extend [.scalar v] = c.pushParam v := by
  simp [Compiled.extend, Compiled.pushParam, render, scalars, String.append_assoc]

theorem to_option_bind {α β : Type} (r : Except Error α) (f : α → Except Error β) :
    (r.bind f).toOption = r.toOption.bind fun a => (f a).toOption := by
  cases r <;> rfl

-- What the induction on a value gives of it: walking it extends what is done by its expansion.
def ExtendsByExpansion (v : Value) : Prop :=
  ∀ (sql : String) (position : Nat) (done : Compiled),
    (numberValue sql position done v).toOption = v.expand.map done.extend

theorem number_text_extends (sql : String) (text : List Char) (position : Nat) (done : Compiled) (vs : List Value)
    (each : ∀ v ∈ vs, ExtendsByExpansion v) :
    (numberText sql position done text vs).toOption = ((expandAll vs).bind (fill text)).map done.extend := by
  induction text using text_induct generalizing position done vs with
  | done =>
      cases vs with
      | nil =>
          rw [number_text_done, expand_all_nil, Option.bind_some, fill, Option.map_some, extend_nil]
          rfl
      | cons v vs =>
          rw [number_text_unused, expand_all_cons]
          cases v.expand with
          | none => rfl
          | some p => cases expandAll vs <;> rfl
  | escape rest ih =>
      rw [number_text_escape, ih position _ vs each, ← extend_char]
      cases expandAll vs with
      | none => rfl
      | some ps =>
          rw [Option.bind_some, Option.bind_some, fill]
          cases fill rest ps with
          | none => rfl
          | some pieces => exact congrArg some (extend_append done [.char '?'] pieces).symm
  | marker rest ih =>
      cases vs with
      | nil =>
          rw [number_text_missing, expand_all_nil, Option.bind_some, fill]
          rfl
      | cons v vs =>
          rw [number_text_marker, to_option_bind, each v (by simp) sql, expand_all_cons]
          cases v.expand with
          | none => rfl
          | some p =>
              simp only [Option.map_some, Option.bind_some]
              rw [ih _ _ vs fun w member => each w (by simp [member])]
              cases expandAll vs with
              | none => rfl
              | some ps =>
                  rw [Option.map_some, Option.bind_some, Option.bind_some, fill]
                  cases fill rest ps with
                  | none => rfl
                  | some pieces => exact congrArg some (extend_append done p pieces).symm
  | plain c rest notMarker alone ih =>
      rw [number_text_plain _ _ _ _ notMarker alone, ih position _ vs each, ← extend_char]
      cases expandAll vs with
      | none => rfl
      | some ps =>
          rw [Option.bind_some, Option.bind_some, fill_plain notMarker alone]
          cases fill rest ps with
          | none => rfl
          | some pieces => exact congrArg some (extend_append done [.char c] pieces).symm

-- The elements behind the first bring their separators with them.
theorem number_items_extends (sql : String) (position : Nat) (done : Compiled) (p : List Piece) (vs : List Value)
    (each : ∀ v ∈ vs, ExtendsByExpansion v) :
    (numberItems sql position (done.extend p) vs).toOption =
      (expandAll vs).map fun ps => done.extend (separated (p :: ps)) := by
  induction vs generalizing done p with
  | nil =>
      rw [number_items_nil, expand_all_nil]
      rfl
  | cons v vs ih =>
      rw [number_items_cons, to_option_bind, each v (by simp) sql, expand_all_cons, ← extend_literal, ← extend_append]
      cases v.expand with
      | none => rfl
      | some first =>
          simp only [Option.map_some, Option.bind_some]
          rw [ih (done.extend (p ++ literalPieces ", ")) first fun w member => each w (by simp [member])]
          cases expandAll vs with
          | none => rfl
          | some ps => exact congrArg some (extend_append done (p ++ literalPieces ", ") (separated (first :: ps))).symm

theorem number_value_extends (v : Value) : ExtendsByExpansion v := by
  induction v using value_induct with
  | atom v atom =>
      intro sql position done
      rw [number_value_atom _ _ _ atom, expand_atom atom, Option.map_some, extend_scalar]
      rfl
  | array vs each =>
      intro sql position done
      rw [expand_array]
      cases vs with
      | nil =>
          rw [number_value_empty]
          rfl
      | cons v vs =>
          rw [number_value_array, to_option_bind, each v (by simp) sql, expand_all_cons]
          cases v.expand with
          | none => rfl
          | some first =>
              simp only [Option.map_some, Option.bind_some]
              rw [number_items_extends sql position done first vs fun w member => each w (by simp [member])]
              cases expandAll vs <;> rfl
  | fragment f each =>
      intro sql position done
      rw [number_value_fragment, expand_fragment]
      exact number_text_extends f.text f.text.toList 0 done f.params each
  | query q each =>
      intro sql position done
      rw [number_value_query, expand_query, to_option_bind]
      cases compiled : q.toFragment with
      | error e => rfl
      | ok f => exact number_text_extends f.text f.text.toList 0 done f.params (each f compiled)

theorem number_counts_expansion (text : String) (params : List Value) :
    (number text params).toOption =
      (expandText text params).map fun pieces => ⟨render 1 pieces, scalars pieces⟩ := by
  have walked := number_text_extends text text.toList 0 .empty params fun v _ => number_value_extends v
  have anew : Compiled.empty.extend = fun pieces => ⟨render 1 pieces, scalars pieces⟩ := by
    funext pieces
    simp [Compiled.extend, Compiled.empty]
  rw [anew] at walked
  exact walked

end QueryBuilder

import Mathlib.Data.List.Forall2
import QueryBuilder.Fragment.Call
import QueryBuilder.Proofs.Expansion
import QueryBuilder.Proofs.Seams

/-!
Literal text and bound values of a fragment that is built call by call.

Main statement: the fragment compiles to what the calls write, one behind the other, as long as no
value is bound right behind a backslash. Such a backslash takes the marker for an escaped one: the
marker becomes a literal question mark, and its value is left over.
-/

set_option autoImplicit false

namespace QueryBuilder

-- What a call writes: literal characters as they are given, and values that take the next number.
inductive FragmentCall.Writes : FragmentCall → List Piece → Prop
  | push (text : String) : FragmentCall.Writes (.push text) (literalPieces text)
  | pushBind {v : Value} : v.isAtom → FragmentCall.Writes (.pushBind v) [.scalar v]
  | pushNoValues : FragmentCall.Writes (.pushBindList []) (literalPieces "NULL")
  | pushValues {v : Value} {vs : List Value} : (∀ w ∈ v :: vs, w.isAtom) →
      FragmentCall.Writes (.pushBindList (v :: vs)) (separated ((v :: vs).map fun w => [.scalar w]))
  | pushIdent {name : String} {i : Ident} : Ident.parse name = .ok i →
      FragmentCall.Writes (.pushIdent name) (literalPieces i.toSql)
  | pushQuoted {name : String} {i : Ident} : Ident.quoted name = .ok i →
      FragmentCall.Writes (.pushQuoted name) (literalPieces i.toSql)
  | limit (n : Int64) : FragmentCall.Writes (.limit n) (literalPieces " LIMIT " ++ [.scalar (.int n)])
  | offset (n : Int64) : FragmentCall.Writes (.offset n) (literalPieces " OFFSET " ++ [.scalar (.int n)])

-- The values that stand right behind a backslash.
def severed : List Piece → Nat
  | [] => 0
  | .char '\\' :: .scalar _ :: rest => severed rest + 1
  | _ :: rest => severed rest

-- A piece in marker form.
def Piece.marked : Piece → List Char
  | .char c => Marker.escapeChar c
  | .scalar _ => ['?']

structure Fragment.Spells (f : Fragment) (pieces : List Piece) : Prop where
  text : f.text.toList = pieces.flatMap Piece.marked
  params : f.params = scalars pieces
  atoms : ∀ v ∈ f.params, v.isAtom

theorem spells_append {f g : Fragment} {ps qs : List Piece} (left : f.Spells ps) (right : g.Spells qs) :
    (f ++ g).Spells (ps ++ qs) := by
  refine ⟨?_, ?_, fun v member => ?_⟩
  · rw [append_text, left.text, right.text, List.flatMap_append]
  · rw [Fragment.append_params, left.params, right.params, scalars_append]
  · rw [Fragment.append_params, List.mem_append] at member
    exact member.elim (left.atoms v) (right.atoms v)

theorem marked_literal (text : List Char) :
    (text.map Piece.char).flatMap Piece.marked = text.flatMap Marker.escapeChar := by
  rw [List.flatMap_map]
  rfl

theorem spells_of_text {text : String} {written : List Char}
    (escaped : text.toList = written.flatMap Marker.escapeChar) :
    (Fragment.ofText text).Spells (written.map .char) := by
  have params : (Fragment.ofText text).params = scalars (written.map .char) := (scalars_literal written).symm
  exact ⟨escaped.trans (marked_literal written).symm, params, nofun⟩

theorem spells_literal (text : String) : (Fragment.literal text).Spells (literalPieces text) :=
  spells_of_text String.toList_ofList

theorem spells_hole {v : Value} (atom : v.isAtom) : (Fragment.hole v).Spells [.scalar v] := by
  refine ⟨by simp [Fragment.hole, Piece.marked], rfl, fun w member => ?_⟩
  rw [List.mem_singleton.mp member]
  exact atom

theorem spells_values {v : Value} {vs : List Value} (atoms : ∀ w ∈ v :: vs, w.isAtom) :
    (Fragment.joinWith ", " ((v :: vs).map .hole)).Spells (separated ((v :: vs).map fun w => [.scalar w])) := by
  induction vs generalizing v with
  | nil => exact spells_hole (atoms v (by simp))
  | cons w rest ih =>
      have first : (Fragment.hole v ++ .literal ", ").Spells ([.scalar v] ++ literalPieces ", ") :=
        spells_append (spells_hole (atoms v (by simp))) (spells_literal ", ")
      exact spells_append first (ih fun u member => atoms u (List.mem_cons_of_mem v member))

theorem write_char_escaped (c : Char) : Ident.writeChar true c = (Ident.writeChar false c).flatMap Marker.escapeChar := by
  by_cases quote : c = '"'
  · rw [quote]
    rfl
  · by_cases marker : c = '?' <;> simp [Ident.writeChar, Marker.escapeChar, quote, marker]

theorem write_part_escaped {part : IdentPart} (formed : part.WellFormed) :
    Ident.writePart true part = (Ident.writePart false part).flatMap Marker.escapeChar := by
  cases part with
  | unquoted name =>
      obtain ⟨c, cs, chars, start, others⟩ := formed
      have noMarker : '?' ∉ name.toList := by
        rw [chars]
        intro member
        rcases List.mem_cons.mp member with rfl | later
        · cases start
        · cases others '?' later
      exact (escape_no_marker noMarker).symm
  | quoted name =>
      have quote : Marker.escapeChar '"' = ['"'] := rfl
      simp only [Ident.writePart, List.flatMap_cons, List.flatMap_append, List.flatMap_nil, List.flatMap_assoc, quote,
        funext write_char_escaped, List.append_nil, List.singleton_append]

theorem write_parts_escaped {parts : List IdentPart} (formed : ∀ part ∈ parts, part.WellFormed) :
    Ident.writeParts true parts = (Ident.writeParts false parts).flatMap Marker.escapeChar := by
  have point : Marker.escapeChar '.' = ['.'] := rfl
  fun_induction Ident.writeParts true parts with
  | case1 => rfl
  | case2 part => exact write_part_escaped (formed part (by simp))
  | case3 part rest more ih =>
      rw [Ident.writeParts, List.flatMap_append, List.flatMap_cons, point, List.singleton_append,
        ← write_part_escaped (formed part (by simp)), ih fun p member => formed p (by simp [member])]
      exact more

theorem marker_form_escaped {i : Ident} (formed : i.WellFormed) : i.markerForm = Marker.escape i.toSql := by
  rw [Ident.markerForm, Ident.toSql, Marker.escape, String.toList_ofList, write_parts_escaped formed.2]

theorem spells_ident {i : Ident} (formed : i.WellFormed) : (Fragment.ident i).Spells (literalPieces i.toSql) := by
  rw [Fragment.ident, marker_form_escaped formed]
  exact spells_literal i.toSql

-- Every call that writes appends one fragment, and refuses nothing.
theorem call_spells {c : FragmentCall} {pieces : List Piece} (writes : c.Writes pieces) :
    ∃ g : Fragment, g.Spells pieces ∧ ∀ f : Fragment, Fragment.call c f = .ok () (f ++ g) := by
  cases writes with
  | push text => exact ⟨.literal text, spells_literal text, fun _ => rfl⟩
  | pushBind atom => exact ⟨.hole _, spells_hole atom, fun _ => rfl⟩
  | pushNoValues => exact ⟨.literal "NULL", spells_literal "NULL", fun _ => rfl⟩
  | pushValues atoms => exact ⟨_, spells_values atoms, fun _ => rfl⟩
  | pushIdent parsed =>
      refine ⟨_, spells_ident (parse_well_formed parsed), fun f => ?_⟩
      simp only [Fragment.call, Fragment.attempt, parsed, Except.map]
      rfl
  | pushQuoted quoted =>
      refine ⟨_, spells_ident (quoted_well_formed quoted), fun f => ?_⟩
      simp only [Fragment.call, Fragment.attempt, quoted, Except.map]
      rfl
  | limit n => exact ⟨.limitClause n, spells_append (spells_literal _) (spells_hole rfl), fun _ => rfl⟩
  | offset n => exact ⟨.offsetClause n, spells_append (spells_literal _) (spells_hole rfl), fun _ => rfl⟩

theorem calls_spell {calls : List FragmentCall} {written : List (List Piece)}
    (writes : List.Forall₂ FragmentCall.Writes calls written) (f : Fragment) {before : List Piece}
    (spells : f.Spells before) :
    ∃ g : Fragment, Fragment.callAll calls f = .ok () g ∧ g.Spells (before ++ written.flatten) := by
  induction writes generalizing f before with
  | nil => exact ⟨f, rfl, by simpa using spells⟩
  | cons first _ ih =>
      obtain ⟨piece, wrote, made⟩ := call_spells first
      obtain ⟨g, done, all⟩ := ih (f ++ piece) (spells_append spells wrote)
      refine ⟨g, ?_, by simpa [List.append_assoc] using all⟩
      simp only [Fragment.callAll, made]
      exact done

theorem marked_head {pieces : List Piece} (led : (pieces.flatMap Piece.marked).head? = some '?') :
    ∃ v rest, pieces = .scalar v :: rest := by
  cases pieces with
  | nil => cases led
  | cons p rest =>
      cases p with
      | scalar v => exact ⟨v, rest, rfl⟩
      | char c =>
          by_cases marker : c = '?' <;> simp [Piece.marked, Marker.escapeChar, marker] at led

theorem marked_apart {c : Char} {rest : List Piece}
    (alone : ∀ v tail, Piece.char c = .char '\\' → rest = .scalar v :: tail → False) :
    ¬ Escapes c (rest.flatMap Piece.marked) := by
  rintro ⟨backslash, next⟩
  obtain ⟨v, tail, led⟩ := marked_head next
  exact alone v tail (by rw [backslash]) led

-- Where no value is severed, the walk takes the text apart into the pieces it was written from.
theorem number_pieces (sql : String) (position : Nat) (done : Compiled) {pieces : List Piece}
    (atoms : ∀ v ∈ scalars pieces, v.isAtom) (apart : severed pieces = 0) :
    numberText sql position done (pieces.flatMap Piece.marked) (scalars pieces) = .ok (done.extend pieces) := by
  fun_induction severed pieces generalizing position done with
  | case1 => rw [extend_nil, List.flatMap_nil, scalars, number_text_done]
  | case2 v rest ih => cases apart
  | case3 p rest alone ih =>
      cases p with
      | scalar v =>
          have next : done.extend (.scalar v :: rest) = (done.pushParam v).extend rest := by
            rw [← extend_scalar, ← extend_append, List.singleton_append]
          rw [List.flatMap_cons, Piece.marked, List.singleton_append, scalars, number_text_marker,
            number_value_atom _ _ _ (atoms v (by simp [scalars])), next]
          exact ih (position + 1) (done.pushParam v) (fun w member => atoms w (by simp [scalars, member])) apart
      | char c =>
          have next : done.extend (.char c :: rest) = (done.pushChar c).extend rest := by
            rw [← extend_char, ← extend_append, List.singleton_append]
          have walked := ih position (done.pushChar c) atoms apart
          rw [List.flatMap_cons, Piece.marked, scalars, next]
          by_cases marker : c = '?'
          · rw [marker] at walked ⊢
            exact (number_text_escape sql position done _ _).trans walked
          · have escape : Marker.escapeChar c = [c] := if_neg marker
            rw [escape, List.singleton_append, number_text_plain _ _ _ _ marker (marked_apart alone)]
            exact walked

-- Each severed value has lost its marker.
theorem count_pieces (pieces : List Piece) :
    Marker.countChars (pieces.flatMap Piece.marked) + severed pieces = (scalars pieces).length := by
  fun_induction severed pieces with
  | case1 => rfl
  | case2 v rest ih =>
      have count : Marker.countChars ((.char '\\' :: .scalar v :: rest).flatMap Piece.marked) =
          Marker.countChars (rest.flatMap Piece.marked) := rfl
      rw [count, scalars, scalars, List.length_cons]
      omega
  | case3 p rest alone ih =>
      cases p with
      | scalar v =>
          rw [List.flatMap_cons, Piece.marked, List.singleton_append, count_marker, scalars, List.length_cons]
          omega
      | char c =>
          rw [List.flatMap_cons, Piece.marked, scalars]
          by_cases marker : c = '?'
          · rw [marker]
            exact ih
          · have escape : Marker.escapeChar c = [c] := if_neg marker
            rw [escape, List.singleton_append, count_plain marker (marked_apart alone)]
            exact ih

-- Values that take a number each are left over when there are more of them than markers.
theorem number_surplus (sql : String) (text : List Char) (position : Nat) (done : Compiled) {vs : List Value}
    (atoms : ∀ v ∈ vs, v.isAtom) (surplus : Marker.countChars text < vs.length) :
    numberText sql position done text vs =
      .error (.extraParam sql (position + Marker.countChars text) (vs.length - Marker.countChars text)) := by
  induction text using text_induct generalizing position done vs with
  | done =>
      cases vs with
      | nil => cases surplus
      | cons v rest => exact number_text_unused sql position done v rest
  | escape rest ih =>
      rw [number_text_escape]
      exact ih position _ atoms surplus
  | marker rest ih =>
      rw [count_marker] at surplus ⊢
      cases vs with
      | nil => cases surplus
      | cons v others =>
          rw [List.length_cons] at surplus ⊢
          rw [number_text_marker, number_value_atom _ _ _ (atoms v (by simp))]
          have others_atoms : ∀ w ∈ others, w.isAtom := fun w member => atoms w (by simp [member])
          have walked := ih (position + 1) (done.pushParam v) others_atoms (by omega)
          have met : position + 1 + Marker.countChars rest = position + (Marker.countChars rest + 1) := by omega
          rw [met] at walked
          rw [Nat.add_sub_add_right]
          exact walked
  | plain c rest notMarker alone ih =>
      rw [count_plain notMarker alone] at surplus ⊢
      rw [number_text_plain _ _ _ _ notMarker alone]
      exact ih position _ atoms surplus

theorem compile_spelled {f : Fragment} {pieces : List Piece} (spells : f.Spells pieces) :
    f.compile =
      if severed pieces = 0 then .ok ⟨render 1 pieces, scalars pieces⟩
      else .error (.extraParam f.text ((scalars pieces).length - severed pieces) (severed pieces)) := by
  have atoms : ∀ v ∈ scalars pieces, v.isAtom := spells.params ▸ spells.atoms
  have count := count_pieces pieces
  unfold Fragment.compile number
  rw [spells.text, spells.params]
  by_cases apart : severed pieces = 0
  · rw [if_pos apart, number_pieces f.text 0 .empty atoms apart]
    simp [Compiled.extend, Compiled.empty]
  · have markers : Marker.countChars (pieces.flatMap Piece.marked) = (scalars pieces).length - severed pieces := by omega
    have unused : (scalars pieces).length - ((scalars pieces).length - severed pieces) = severed pieces := by omega
    rw [if_neg apart, number_surplus f.text _ 0 .empty atoms (by omega), markers, unused, Nat.zero_add]

theorem written_calls_compile (calls : List FragmentCall) (written : List (List Piece))
    (writes : List.Forall₂ FragmentCall.Writes calls written) :
    ∃ f : Fragment, Fragment.callAll calls .empty = .ok () f ∧
      f.compile =
        if severed written.flatten = 0 then .ok ⟨render 1 written.flatten, scalars written.flatten⟩
        else .error (.extraParam f.text ((scalars written.flatten).length - severed written.flatten)
          (severed written.flatten)) := by
  have nothing : Fragment.empty.Spells [] := ⟨rfl, rfl, nofun⟩
  obtain ⟨f, made, spells⟩ := calls_spell writes .empty nothing
  exact ⟨f, made, compile_spelled spells⟩

-- Backslashes and question marks meet in every way but one: no value stands right behind a backslash.
theorem mixed_calls_compile :
    let calls := [FragmentCall.push "a ?\\", .push "? b = ", .pushBind (.text "?"), .push " AND ",
      .pushIdent "t.\"c\\\"", .push " IN (", .pushBindList [.int 1, .null], .push ") OR ", .pushBindList [], .limit 5]
    ∃ f : Fragment, Fragment.callAll calls .empty = .ok () f ∧
      f.compile = .ok ⟨"a ?\\? b = $1 AND t.\"c\\\" IN ($2, $3) OR NULL LIMIT $4", [.text "?", .int 1, .null, .int 5]⟩ := by
  intro calls
  have parts : Ident.readParts "t.\"c\\\"".toList = .ok [.unquoted "t", .quoted "c\\"] := by cbv
  have named : Ident.parse "t.\"c\\\"" = .ok ⟨[.unquoted "t", .quoted "c\\"]⟩ := by
    rw [Ident.parse, Ident.read, if_neg (by decide), if_neg (by decide), parts]
    rfl
  have scalar : ∀ v ∈ [Value.int 1, .null], v.isAtom := by simp [Value.isAtom]
  have writes : List.Forall₂ FragmentCall.Writes calls
      [literalPieces "a ?\\", literalPieces "? b = ", [.scalar (.text "?")], literalPieces " AND ",
        literalPieces (Ident.toSql ⟨[.unquoted "t", .quoted "c\\"]⟩), literalPieces " IN (",
        separated ([.int 1, .null].map fun w => [.scalar w]), literalPieces ") OR ", literalPieces "NULL",
        literalPieces " LIMIT " ++ [.scalar (.int 5)]] :=
    .cons (.push _) <| .cons (.push _) <| .cons (.pushBind rfl) <| .cons (.push _) <| .cons (.pushIdent named) <|
      .cons (.push _) <| .cons (.pushValues scalar) <| .cons (.push _) <| .cons .pushNoValues <| .cons (.limit 5) .nil
  obtain ⟨f, made, compiled⟩ := written_calls_compile calls _ writes
  refine ⟨f, made, ?_⟩
  rw [compiled, if_pos (by cbv)]
  cbv

theorem backslash_takes_marker :
    ¬ ∀ (calls : List FragmentCall) (written : List (List Piece)), List.Forall₂ FragmentCall.Writes calls written →
      ∃ f : Fragment, Fragment.callAll calls .empty = .ok () f ∧
        f.compile = .ok ⟨render 1 written.flatten, scalars written.flatten⟩ := by
  intro holds
  have writes : List.Forall₂ FragmentCall.Writes [.push "a\\", .pushBind (.int 1)]
      [literalPieces "a\\", [.scalar (.int 1)]] := .cons (.push _) (.cons (.pushBind rfl) .nil)
  obtain ⟨f, made, compiled⟩ := holds _ _ writes
  cases made
  have failed : (Fragment.empty.push "a\\" |>.pushBind (.int 1)).compile = .error (.extraParam "a\\?" 0 1) := by
    cbv
  rw [failed] at compiled
  cases compiled

end QueryBuilder

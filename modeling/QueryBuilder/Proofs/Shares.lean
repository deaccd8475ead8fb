import QueryBuilder.Proofs.Expansion

/-!
What each part of a text takes of the parameters.

Main statement: a text that is split where no backslash meets a marker expands part by part, the first
part with as many of the parameters as it has markers, and the second part with those that are left.
-/

set_option autoImplicit false

namespace QueryBuilder

theorem expand_all_length {vs : List Value} {ps : List (List Piece)} (all : expandAll vs = some ps) :
    ps.length = vs.length :=
  (expand_all_related all).length_eq.symm

theorem expand_all_split {vs : List Value} {ps : List (List Piece)} (all : expandAll vs = some ps) (n : Nat) :
    expandAll (vs.take n) = some (ps.take n) ∧ expandAll (vs.drop n) = some (ps.drop n) := by
  induction vs generalizing n ps with
  | nil =>
      cases all
      simp [expand_all_nil]
  | cons v vs ih =>
      rw [expand_all_cons] at all
      obtain ⟨p, first, others⟩ := Option.bind_eq_some_iff.mp all
      obtain ⟨rest, later, rfl⟩ := Option.map_eq_some_iff.mp others
      cases n with
      | zero => simp [expand_all_nil, expand_all_cons, first, later]
      | succ n =>
          obtain ⟨taken, left⟩ := ih later n
          simp [expand_all_cons, first, taken, left]

theorem expand_all_append (vs ws : List Value) :
    expandAll (vs ++ ws) = (expandAll vs).bind fun ps => (expandAll ws).map fun qs => ps ++ qs := by
  induction vs with
  | nil =>
      rw [List.nil_append, expand_all_nil, Option.bind_some]
      exact Option.map_id_apply.symm
  | cons v vs ih =>
      rw [List.cons_append, expand_all_cons, expand_all_cons, ih]
      cases v.expand <;> cases expandAll vs <;> cases expandAll ws <;> rfl

theorem fill_append {a b : List Char} (apart : ¬ Meets a b) (es : List (List Piece)) :
    fill (a ++ b) es =
      (fill a (es.take (Marker.countChars a))).bind fun ps =>
        (fill b (es.drop (Marker.countChars a))).map fun qs => ps ++ qs := by
  induction a using text_induct generalizing es with
  | done => exact Option.map_id_apply.symm
  | escape rest ih =>
      rw [List.cons_append, List.cons_append, fill, ih fun meets => apart (meets_cons (meets_cons meets))]
      rw [Marker.countChars, fill]
      cases fill rest _ <;> cases fill b _ <;> rfl
  | marker rest ih =>
      cases es with
      | nil =>
          rw [List.take_nil, List.cons_append, fill, fill]
          rfl
      | cons e es =>
          rw [List.cons_append, fill, ih fun meets => apart (meets_cons meets)]
          rw [count_marker, List.take_succ_cons, List.drop_succ_cons, fill]
          cases fill rest _ <;> cases fill b _ <;> simp
  | plain c rest notMarker alone ih =>
      rw [List.cons_append, fill_plain notMarker (alone_append alone apart), ih fun meets => apart (meets_cons meets)]
      rw [count_plain notMarker alone, fill_plain notMarker alone]
      cases fill rest _ <;> cases fill b _ <;> rfl

theorem fills_count {text : List Char} {es : List (List Piece)} {pieces : List Piece} (fills : Fills text es pieces) :
    es.length = Marker.countChars text := by
  induction fills with
  | done => rfl
  | escape behind ih => rw [Marker.countChars, ih]
  | marker e behind ih => rw [count_marker, List.length_cons, ih]
  | plain notMarker alone behind ih => rw [count_plain notMarker alone, ih]

-- Escaped text is what it was before.
theorem fill_escaped (text : List Char) : fill (text.flatMap Marker.escapeChar) [] = some (text.map .char) := by
  induction text with
  | nil => rfl
  | cons c rest ih =>
      by_cases marker : c = '?'
      · rw [List.flatMap_cons, marker, Marker.escapeChar, if_pos rfl, List.cons_append, List.singleton_append, fill, ih]
        rfl
      · have led := (silent_escape (String.ofList rest)).led
        rw [Marker.escape, String.toList_ofList, String.toList_ofList] at led
        rw [List.flatMap_cons, Marker.escapeChar, if_neg marker, List.singleton_append,
          fill_plain marker fun escapes => led escapes.2, ih]
        rfl

theorem literal_expands (text : String) : expandText (Marker.escape text) [] = some (literalPieces text) := by
  rw [expandText, expand_all_nil, Marker.escape, String.toList_ofList]
  exact fill_escaped text.toList

theorem fill_unmarked {text : List Char} (none : '?' ∉ text) : fill text [] = some (text.map .char) := by
  have escaped := fill_escaped text
  rwa [escape_no_marker none] at escaped

theorem expand_text_balanced {text : String} {vs : List Value} {pieces : List Piece}
    (expanded : expandText text vs = some pieces) : Marker.count text = vs.length := by
  obtain ⟨ps, all, filled⟩ := Option.bind_eq_some_iff.mp expanded
  rw [Marker.count, ← fills_count (fills_of_fill filled), expand_all_length all]

-- Each part takes its share of the parameters, whether the walk over the whole succeeds or not.
theorem expand_text_split {a b : String} (apart : ¬ Meets a.toList b.toList) (vs : List Value) :
    expandText (a ++ b) vs =
      (expandText a (vs.take (Marker.count a))).bind fun ps =>
        (expandText b (vs.drop (Marker.count a))).map fun qs => ps ++ qs := by
  unfold expandText
  rw [String.toList_append]
  cases all : expandAll vs with
  | some es =>
      obtain ⟨taken, left⟩ := expand_all_split all (Marker.count a)
      rw [taken, left]
      exact fill_append apart es
  | none =>
      have joined := expand_all_append (vs.take (Marker.count a)) (vs.drop (Marker.count a))
      rw [List.take_append_drop, all] at joined
      cases first : expandAll (vs.take (Marker.count a)) with
      | none => rfl
      | some es =>
          cases second : expandAll (vs.drop (Marker.count a)) with
          | none => cases filled : fill a.toList es <;> simp [filled]
          | some fs =>
              rw [first, second] at joined
              cases joined

theorem expand_text_append {a b : String} (apart : ¬ Meets a.toList b.toList) {vs : List Value} {pieces : List Piece}
    (expanded : expandText (a ++ b) vs = some pieces) :
    ∃ ps qs, expandText a (vs.take (Marker.count a)) = some ps ∧ expandText b (vs.drop (Marker.count a)) = some qs ∧
      pieces = ps ++ qs := by
  rw [expand_text_split apart] at expanded
  obtain ⟨ps, first, others⟩ := Option.bind_eq_some_iff.mp expanded
  obtain ⟨qs, second, rfl⟩ := Option.map_eq_some_iff.mp others
  exact ⟨ps, qs, first, second, rfl⟩

theorem expand_text_unmarked {a b : String} (unmarked : '?' ∉ a.toList) (apart : ¬ Meets a.toList b.toList)
    {vs : List Value} {pieces : List Piece} (expanded : expandText (a ++ b) vs = some pieces) :
    ∃ rest, expandText b vs = some rest ∧ pieces = literalPieces a ++ rest := by
  have none : Marker.count a = 0 := (silent_of_no_marker unmarked).count
  obtain ⟨ps, qs, first, second, rfl⟩ := expand_text_append apart expanded
  rw [none, List.take_zero, expandText, expand_all_nil, Option.bind_some, fill_unmarked unmarked] at first
  rw [none, List.drop_zero] at second
  cases first
  exact ⟨qs, second, rfl⟩

-- A walk that succeeds has put in the expansion of its text.
theorem number_expands {text : String} {vs : List Value} {c : Compiled} :
    number text vs = .ok c ↔ ∃ pieces, expandText text vs = some pieces ∧ c = Compiled.empty.extend pieces := by
  have walked : (number text vs).toOption = (expandText text vs).map Compiled.empty.extend :=
    number_text_extends text text.toList 0 .empty vs fun v _ => number_value_extends v
  constructor
  · intro numbered
    rw [numbered] at walked
    obtain ⟨pieces, expanded, same⟩ := Option.map_eq_some_iff.mp walked.symm
    exact ⟨pieces, expanded, same.symm⟩
  · rintro ⟨pieces, expanded, rfl⟩
    rw [expanded] at walked
    cases numbered : number text vs with
    | error e =>
        rw [numbered] at walked
        cases walked
    | ok d =>
        rw [numbered] at walked
        exact congrArg Except.ok (Option.some.inj walked)

end QueryBuilder

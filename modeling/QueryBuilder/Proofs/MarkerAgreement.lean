import QueryBuilder.Proofs.LiteralText

/-!
The count of the markers of a text beside the walk that numbers them.

Main statement: with parameters that take a number each, the walk meets as many markers as are counted,
whatever backslashes and question marks the text holds. It succeeds when there are as many parameters,
misses the first one that is not there, and leaves over those that no marker takes.
-/

set_option autoImplicit false

namespace QueryBuilder

-- A marker past the last parameter stops the walk, whatever stands behind it.
theorem number_shortage (sql : String) (text : List Char) (position : Nat) (done : Compiled) {vs : List Value}
    (atoms : ∀ v ∈ vs, v.isAtom) (shortage : vs.length < Marker.countChars text) :
    numberText sql position done text vs = .error (.missingParam sql (position + vs.length + 1)) := by
  induction text using text_induct generalizing position done vs with
  | done => cases shortage
  | escape rest ih =>
      rw [number_text_escape]
      exact ih position _ atoms shortage
  | marker rest ih =>
      rw [count_marker] at shortage
      cases vs with
      | nil => exact number_text_missing sql position done rest
      | cons v others =>
          rw [List.length_cons] at shortage ⊢
          rw [number_text_marker, number_value_atom _ _ _ (atoms v (by simp))]
          have others_atoms : ∀ w ∈ others, w.isAtom := fun w member => atoms w (by simp [member])
          have walked := ih (position + 1) (done.pushParam v) others_atoms (by omega)
          have met : position + 1 + others.length + 1 = position + (others.length + 1) + 1 := by omega
          rw [met] at walked
          exact walked
  | plain c rest notMarker alone ih =>
      rw [count_plain notMarker alone] at shortage
      rw [number_text_plain _ _ _ _ notMarker alone]
      exact ih position _ atoms shortage

-- Each parameter goes behind those that the walk has taken before.
theorem number_matched (sql : String) (text : List Char) (position : Nat) (done : Compiled) {vs : List Value}
    (atoms : ∀ v ∈ vs, v.isAtom) (matched : vs.length = Marker.countChars text) :
    ∃ written, numberText sql position done text vs = .ok ⟨written, done.params ++ vs⟩ := by
  induction text using text_induct generalizing position done vs with
  | done =>
      cases List.length_eq_zero_iff.mp matched
      exact ⟨done.sql, by rw [number_text_done, List.append_nil]⟩
  | escape rest ih =>
      rw [number_text_escape]
      exact ih position (done.pushChar '?') atoms matched
  | marker rest ih =>
      rw [count_marker] at matched
      cases vs with
      | nil => cases matched
      | cons v others =>
          rw [number_text_marker, number_value_atom _ _ _ (atoms v (by simp))]
          have others_atoms : ∀ w ∈ others, w.isAtom := fun w member => atoms w (by simp [member])
          obtain ⟨written, walked⟩ := ih (position + 1) (done.pushParam v) others_atoms (Nat.succ.inj matched)
          have taken : (done.pushParam v).params ++ others = done.params ++ v :: others := List.append_assoc _ _ _
          rw [taken] at walked
          exact ⟨written, walked⟩
  | plain c rest notMarker alone ih =>
      rw [count_plain notMarker alone] at matched
      rw [number_text_plain _ _ _ _ notMarker alone]
      exact ih position (done.pushChar c) atoms matched

theorem numbering_agrees_with_count (text : String) (params : List Value) (scalar : ∀ v ∈ params, v.isAtom = true) :
    ((∃ c, number text params = .ok c) ↔ params.length = Marker.count text) ∧
    (∀ c, number text params = .ok c → c.params = params) ∧
    (params.length < Marker.count text → number text params = .error (.missingParam text (params.length + 1))) ∧
    (Marker.count text < params.length →
      number text params = .error (.extraParam text (Marker.count text) (params.length - Marker.count text))) := by
  have lacking (shortage : params.length < Marker.count text) :
      number text params = .error (.missingParam text (params.length + 1)) := by
    have walked := number_shortage text text.toList 0 .empty scalar shortage
    rwa [Nat.zero_add] at walked
  have exceeding (surplus : Marker.count text < params.length) :
      number text params = .error (.extraParam text (Marker.count text) (params.length - Marker.count text)) := by
    have walked := number_surplus text text.toList 0 .empty scalar surplus
    rwa [Nat.zero_add] at walked
  have matched (same : params.length = Marker.count text) : ∃ written, number text params = .ok ⟨written, params⟩ :=
    number_matched text text.toList 0 .empty scalar same
  have counted {c : Compiled} (numbered : number text params = .ok c) : params.length = Marker.count text := by
    rcases Nat.lt_trichotomy params.length (Marker.count text) with shortage | same | surplus
    · cases numbered.symm.trans (lacking shortage)
    · exact same
    · cases numbered.symm.trans (exceeding surplus)
  refine ⟨⟨fun ⟨c, numbered⟩ => counted numbered, fun same => ?_⟩, fun c numbered => ?_, lacking, exceeding⟩
  · obtain ⟨written, numbered⟩ := matched same
    exact ⟨_, numbered⟩
  · obtain ⟨written, made⟩ := matched (counted numbered)
    cases numbered.symm.trans made
    rfl

-- One of the three question marks is a marker: the others stand behind a run of two backslashes, and behind one.
def slashedText : String :=
  "a\\\\? < ? AND b\\? = \\"

theorem slashed_text_counted :
    let one : Value := .text "?"
    (∀ v ∈ [one, .null], v.isAtom = true) ∧ Marker.count slashedText = 1 ∧
    number slashedText [one] = .ok ⟨"a\\? < $1 AND b? = \\", [one]⟩ ∧
    number slashedText [] = .error (.missingParam slashedText 1) ∧
    number slashedText [one, .null] = .error (.extraParam slashedText 1 1) := by
  intro one
  have scalar : ∀ v ∈ [one, .null], v.isAtom = true := by
    simp [one, Value.isAtom]
  have count : Marker.count slashedText = 1 := by
    decide
  have written : number slashedText [one] = .ok ⟨"a\\? < $1 AND b? = \\", [one]⟩ := by
    cbv
  obtain ⟨-, -, lacking, -⟩ := numbering_agrees_with_count slashedText [] (by simp)
  obtain ⟨-, -, -, exceeding⟩ := numbering_agrees_with_count slashedText [one, .null] scalar
  rw [count] at lacking exceeding
  exact ⟨scalar, count, written, lacking (by decide), exceeding (by decide)⟩

end QueryBuilder

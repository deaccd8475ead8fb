import QueryBuilder.Proofs.LiteralText
import QueryBuilder.Proofs.Shares

/-!
Escaped text in front of other text.

Main statement: numbering gives an escaped text back as it was, and numbers what is behind it as if
nothing stood before it, with the same parameters. The same holds of an identifier in marker form. Only
a text that ends in a backslash may not have a question mark behind it; an identifier never ends in one.
-/

set_option autoImplicit false

namespace QueryBuilder

def Compiled.behind (c : Compiled) (text : String) : Compiled :=
  ⟨text ++ c.sql, c.params⟩

theorem extend_behind (text : String) (pieces : List Piece) :
    Compiled.empty.extend (literalPieces text ++ pieces) = (Compiled.empty.extend pieces).behind text := by
  rw [extend_append, extend_literal]
  simp [Compiled.extend, Compiled.pushText, Compiled.empty, Compiled.behind]

theorem escape_apart {s t : String} (apart : ¬ Meets s.toList t.toList) :
    ¬ Meets (Marker.escape s).toList t.toList := by
  rwa [Meets, Marker.escape, String.toList_ofList, escape_last]

-- An escaped text has no markers, so every parameter is left for the text behind it.
theorem escaped_expands {s t : String} (apart : ¬ Meets s.toList t.toList) (vs : List Value) :
    expandText (Marker.escape s ++ t) vs = (expandText t vs).map fun pieces => literalPieces s ++ pieces := by
  have none : Marker.count (Marker.escape s) = 0 := (silent_escape s).count
  rw [expand_text_split (escape_apart apart), none, List.take_zero, List.drop_zero, literal_expands]
  rfl

theorem number_behind_escaped {s t : String} (apart : ¬ Meets s.toList t.toList) (vs : List Value) (c : Compiled) :
    number (Marker.escape s ++ t) vs = .ok c ↔ ∃ d, number t vs = .ok d ∧ c = d.behind s := by
  simp only [number_expands, escaped_expands apart]
  constructor
  · rintro ⟨_, expanded, rfl⟩
    obtain ⟨pieces, behind, rfl⟩ := Option.map_eq_some_iff.mp expanded
    exact ⟨_, ⟨pieces, behind, rfl⟩, extend_behind s pieces⟩
  · rintro ⟨_, ⟨pieces, behind, rfl⟩, rfl⟩
    exact ⟨_, Option.map_eq_some_iff.mpr ⟨pieces, behind, rfl⟩, (extend_behind s pieces).symm⟩

theorem write_part_closed {part : IdentPart} (formed : part.WellFormed) :
    (Ident.writePart false part).getLast? ≠ some '\\' := by
  cases part with
  | unquoted name =>
      obtain ⟨c, cs, chars, start, others⟩ := formed
      rw [Ident.writePart, chars]
      intro last
      rcases List.mem_cons.mp (List.mem_of_getLast? last) with rfl | later
      · cases start
      · cases others '\\' later
  | quoted name =>
      rw [Ident.writePart, ← List.cons_append, List.getLast?_concat]
      decide

theorem write_parts_closed {parts : List IdentPart} (formed : ∀ part ∈ parts, part.WellFormed) :
    (Ident.writeParts false parts).getLast? ≠ some '\\' := by
  fun_induction Ident.writeParts false parts with
  | case1 => simp
  | case2 part => exact write_part_closed (formed part (by simp))
  | case3 part rest more ih =>
      have others := ih fun p member => formed p (by simp [member])
      rw [List.getLast?_append, List.getLast?_cons]
      cases ends : (Ident.writeParts false rest).getLast? with
      | none => simp
      | some c =>
          rw [ends] at others
          simpa using others

theorem ident_apart {i : Ident} (formed : i.WellFormed) (behind : List Char) : ¬ Meets i.toSql.toList behind := by
  rw [Ident.toSql, String.toList_ofList]
  exact fun meets => write_parts_closed formed.2 meets.1

theorem escaped_text_numbered_away (t : String) (vs : List Value) (c : Compiled) :
    (∀ s : String, s.toList.getLast? ≠ some '\\' ∨ t.toList.head? ≠ some '?' →
      (number (Marker.escape s ++ t) vs = .ok c ↔ ∃ d, number t vs = .ok d ∧ c = d.behind s)) ∧
    ∀ i : Ident, i.WellFormed →
      (number (i.markerForm ++ t) vs = .ok c ↔ ∃ d, number t vs = .ok d ∧ c = d.behind i.toSql) := by
  constructor
  · intro s apart
    exact number_behind_escaped (not_and_or.mpr apart) vs c
  · intro i formed
    rw [marker_form_escaped formed]
    exact number_behind_escaped (ident_apart formed t.toList) vs c

-- The backslashes that are there already stand right before those that protect the question marks.
def backslashedText : String :=
  "\\? \\\\?"

def backslashedName : Ident :=
  ⟨[.unquoted "t", .quoted "is \"it\\?"]⟩

theorem backslashed_text_numbered_away :
    let vs : List Value := [.int 1, .array [.int 2, .int 3]]
    let flat : List Value := [.int 1, .int 2, .int 3]
    backslashedText.toList.getLast? ≠ some '\\' ∧ backslashedName.WellFormed ∧
    number "? = ?" vs = .ok ⟨"$1 = $2, $3", flat⟩ ∧
    number (Marker.escape backslashedText ++ "? = ?") vs = .ok ⟨"\\? \\\\?$1 = $2, $3", flat⟩ ∧
    number (backslashedName.markerForm ++ "? = ?") vs = .ok ⟨"t.\"is \"\"it\\?\"$1 = $2, $3", flat⟩ := by
  intro vs flat
  have closed : backslashedText.toList.getLast? ≠ some '\\' := by
    decide
  have formed : backslashedName.WellFormed := by
    refine ⟨by decide, fun part member => ?_⟩
    rcases List.mem_cons.mp member with rfl | member
    · exact ⟨'t', [], rfl, rfl, nofun⟩
    · cases List.mem_singleton.mp member
      exact ⟨by decide, by decide⟩
  have alone : number "? = ?" vs = .ok ⟨"$1 = $2, $3", flat⟩ := by
    cbv
  have text := (escaped_text_numbered_away "? = ?" vs ⟨"\\? \\\\?$1 = $2, $3", flat⟩).1 backslashedText (.inl closed)
  have name := (escaped_text_numbered_away "? = ?" vs ⟨"t.\"is \"\"it\\?\"$1 = $2, $3", flat⟩).2 backslashedName formed
  exact ⟨closed, formed, alone, text.mpr ⟨_, alone, by cbv⟩, name.mpr ⟨_, alone, by cbv⟩⟩

end QueryBuilder

import QueryBuilder.Proofs.Markers

/-!
What the reader of identifiers accepts.

Main statements: a part that was read is well formed, and the marker form of a well-formed
identifier adds no marker to the text it is put behind.
-/

set_option autoImplicit false

namespace QueryBuilder

def IdentPart.WellFormed : IdentPart → Prop
  | .unquoted name => ∃ c cs, name.toList = c :: cs ∧ Ident.isStart c ∧ ∀ d ∈ cs, Ident.isContinue d
  | .quoted name => name.toList ≠ [] ∧ Ident.nulChar ∉ name.toList

def Ident.WellFormed (i : Ident) : Prop :=
  i.parts ≠ [] ∧ ∀ part ∈ i.parts, part.WellFormed

theorem map_ok_inv {ε α β : Type} {r : Except ε α} {f : α → β} {b : β} (made : r.map f = .ok b) :
    ∃ a, r = .ok a ∧ f a = b := by
  cases r with
  | error e => cases made
  | ok a => exact ⟨a, rfl, Except.ok.inj made⟩

theorem written_of_read_quoted {input name rest : List Char} (read : Ident.readQuoted input = .ok (name, rest)) :
    input = name.flatMap (Ident.writeChar false) ++ '"' :: rest ∧ rest.head? ≠ some '"' := by
  fun_induction Ident.readQuoted input generalizing name rest with
  | case1 => cases read
  | case2 tail ih =>
      obtain ⟨inner, later, same⟩ := map_ok_inv read
      cases same
      obtain ⟨written, closed⟩ := ih later
      exact ⟨by rw [written]; rfl, closed⟩
  | case3 tail alone =>
      cases read
      refine ⟨rfl, fun doubled => ?_⟩
      obtain ⟨after, rfl⟩ := List.head?_eq_some_iff.mp doubled
      exact alone after rfl rfl
  | case4 c tail alone notQuote ih =>
      obtain ⟨inner, later, same⟩ := map_ok_inv read
      cases same
      obtain ⟨written, closed⟩ := ih later
      have single : Ident.writeChar false c = [c] := by simp [Ident.writeChar, notQuote]
      refine ⟨?_, closed⟩
      rw [List.flatMap_cons, single, List.append_assoc, ← written]
      rfl

theorem mem_written_name (d : Char) (name : List Char) : d ∈ name.flatMap (Ident.writeChar false) ↔ d ∈ name := by
  have each (c : Char) : d ∈ Ident.writeChar false c ↔ d = c := by
    by_cases quote : c = '"' <;> simp [Ident.writeChar, quote]
  simp only [List.mem_flatMap, each, exists_eq_right']

theorem read_quoted_no_nul (input name rest : List Char) (read : Ident.readQuoted input = .ok (name, rest))
    (noNul : Ident.nulChar ∉ input) : Ident.nulChar ∉ name ∧ Ident.nulChar ∉ rest := by
  obtain ⟨written, -⟩ := written_of_read_quoted read
  rw [written, List.mem_append, mem_written_name, List.mem_cons, not_or, not_or] at noNul
  exact ⟨noNul.1, noNul.2.2⟩

theorem read_unquoted_well_formed (input rest : List Char) (part : IdentPart)
    (read : Ident.readUnquoted input = .ok (part, rest)) (noNul : Ident.nulChar ∉ input) :
    part.WellFormed ∧ Ident.nulChar ∉ rest := by
  unfold Ident.readUnquoted at read
  cases taken : input.takeWhile (· != '.') with
  | nil =>
      rw [taken] at read
      cases read
  | cons c cs =>
      simp only [taken] at read
      by_cases start : Ident.isStart c
      · rw [if_pos start] at read
        cases bad : cs.find? (fun d => !Ident.isContinue d) with
        | some d =>
            rw [bad] at read
            cases read
        | none =>
            rw [bad] at read
            cases read
            refine ⟨⟨c, cs, by simp, start, fun d member => ?_⟩, fun member => noNul ?_⟩
            · simpa using List.find?_eq_none.mp bad d member
            · exact (List.dropWhile_sublist _).subset member
      · rw [if_neg start] at read
        cases read

theorem read_part_well_formed (input rest : List Char) (part : IdentPart)
    (read : Ident.readPart input = .ok (part, rest)) (noNul : Ident.nulChar ∉ input) :
    part.WellFormed ∧ Ident.nulChar ∉ rest := by
  unfold Ident.readPart at read
  split at read
  · rename_i tail
    simp only [List.mem_cons, not_or] at noNul
    split at read
    · cases read
    · cases read
    · rename_i name after nonempty quoted
      cases read
      have below := read_quoted_no_nul tail name _ quoted noNul.2
      refine ⟨⟨?_, ?_⟩, below.2⟩
      · rw [String.toList_ofList]
        exact nonempty
      · rw [String.toList_ofList]
        exact below.1
  · exact read_unquoted_well_formed _ rest part read noNul

theorem read_parts_well_formed (input : List Char) (parts : List IdentPart)
    (read : Ident.readParts input = .ok parts) (noNul : Ident.nulChar ∉ input) :
    parts ≠ [] ∧ ∀ part ∈ parts, part.WellFormed := by
  fun_induction Ident.readParts input generalizing parts with
  | case1 input fault failed => cases read
  | case2 input part last =>
      cases read
      have only := read_part_well_formed input [] part last noNul
      exact ⟨by simp, by simpa using only.1⟩
  | case3 input part trailing => cases read
  | case4 input part c rest more fault failed ih => cases read
  | case5 input part c rest more parts rest' ih =>
      cases read
      have first := read_part_well_formed input _ part more noNul
      simp only [List.mem_cons, not_or] at first
      have others := ih parts rest' (by simpa using first.2.2)
      refine ⟨by simp, fun p member => ?_⟩
      rcases List.mem_cons.mp member with rfl | later
      · exact first.1
      · exact others.2 p later
  | case6 => cases read

theorem parse_well_formed {s : String} {i : Ident} (parsed : Ident.parse s = .ok i) : i.WellFormed := by
  unfold Ident.parse Ident.read at parsed
  split at parsed
  · cases parsed
  · split at parsed
    · cases parsed
    · rename_i noNul
      cases read : Ident.readParts s.toList with
      | error fault =>
          rw [read] at parsed
          cases parsed
      | ok parts =>
          rw [read] at parsed
          cases parsed
          exact read_parts_well_formed s.toList parts read (by simpa using noNul)

theorem quoted_well_formed {s : String} {i : Ident} (quoted : Ident.quoted s = .ok i) : i.WellFormed := by
  unfold Ident.quoted at quoted
  split at quoted
  · cases quoted
  · split at quoted
    · cases quoted
    · rename_i nonempty noNul
      cases quoted
      refine ⟨by simp, ?_⟩
      simpa [IdentPart.WellFormed] using And.intro nonempty noNul

theorem write_part_silent {part : IdentPart} (formed : part.WellFormed) : Silent (Ident.writePart true part) := by
  cases part with
  | unquoted name =>
      obtain ⟨c, cs, chars, start, others⟩ := formed
      rw [Ident.writePart, chars]
      refine silent_of_no_marker fun member => ?_
      rcases List.mem_cons.mp member with rfl | later
      · cases start
      · cases others '?' later
  | quoted name =>
      rw [Ident.writePart, ← List.singleton_append]
      refine silent_append (silent_char (by decide)) (silent_append (silent_flat_map fun c _ => ?_) (silent_char (by decide)))
      unfold Ident.writeChar
      by_cases quote : c = '"'
      · rw [if_pos quote]
        exact silent_of_no_marker (by decide)
      · by_cases marker : c = '?'
        · rw [marker]
          exact silent_escaped_marker
        · simpa [quote, marker] using silent_char marker

theorem write_parts_silent {parts : List IdentPart} (formed : ∀ part ∈ parts, part.WellFormed) :
    Silent (Ident.writeParts true parts) := by
  fun_induction Ident.writeParts true parts with
  | case1 => exact silent_nil
  | case2 part => exact write_part_silent (formed part (by simp))
  | case3 part rest _ ih =>
      refine silent_append (write_part_silent (formed part (by simp))) ?_
      exact silent_append (silent_char (by decide)) (ih fun p member => formed p (by simp [member]))

theorem marker_form_silent {i : Ident} (formed : i.WellFormed) : Silent i.markerForm.toList := by
  rw [Ident.markerForm, String.toList_ofList]
  exact write_parts_silent formed.2

end QueryBuilder

import QueryBuilder.Proofs.Identifiers

/-!
The written form of an identifier.

Main statement: a text is read exactly when it is what a well-formed identifier is written as, and
the reading gives that identifier. Each identifier has one written form, then, and any other text is
refused.
-/

set_option autoImplicit false

namespace QueryBuilder

-- An ASCII letter, or the underscore that may stand for one.
def IsLetter (c : Char) : Prop :=
  c = '_' ∨ ('A' ≤ c ∧ c ≤ 'Z') ∨ ('a' ≤ c ∧ c ≤ 'z')

def IsDigit (c : Char) : Prop :=
  '0' ≤ c ∧ c ≤ '9'

theorem alpha_iff (c : Char) : c.isAlpha ↔ ('A' ≤ c ∧ c ≤ 'Z') ∨ ('a' ≤ c ∧ c ≤ 'z') := by
  have upper : c.isUpper = decide ('A' ≤ c ∧ c ≤ 'Z') := rfl
  have lower : c.isLower = (decide ('a' ≤ c) && decide (c ≤ 'z')) := rfl
  have alpha : c.isAlpha = (c.isUpper || c.isLower) := rfl
  simp only [alpha, upper, lower, Bool.or_eq_true, Bool.and_eq_true, decide_eq_true_eq]

theorem digit_iff (c : Char) : c.isDigit ↔ IsDigit c := by
  have digit : c.isDigit = (decide ('0' ≤ c) && decide (c ≤ '9')) := rfl
  simp only [digit, IsDigit, Bool.and_eq_true, decide_eq_true_eq]

theorem start_iff_letter (c : Char) : Ident.isStart c ↔ IsLetter c := by
  simp only [Ident.isStart, IsLetter, Bool.or_eq_true, beq_iff_eq, alpha_iff]

theorem continue_iff (c : Char) : Ident.isContinue c ↔ IsLetter c ∨ IsDigit c ∨ c = '$' := by
  have word : c.isAlphanum = (c.isAlpha || c.isDigit) := rfl
  simp only [Ident.isContinue, word, IsLetter, Bool.or_eq_true, beq_iff_eq, alpha_iff, digit_iff]
  grind

-- The parts of an identifier by their characters: `[A-Za-z_][A-Za-z0-9_$]*`, and what a quoted part may hold.
def IdentPart.Grammatical : IdentPart → Prop
  | .unquoted name => ∃ c cs, name.toList = c :: cs ∧ IsLetter c ∧ ∀ d ∈ cs, IsLetter d ∨ IsDigit d ∨ d = '$'
  | .quoted name => name ≠ "" ∧ Char.ofNat 0 ∉ name.toList

def Ident.Grammatical (i : Ident) : Prop :=
  i.parts ≠ [] ∧ ∀ part ∈ i.parts, part.Grammatical

theorem well_formed_iff_grammatical (i : Ident) : i.WellFormed ↔ i.Grammatical := by
  have each (part : IdentPart) : part.WellFormed ↔ part.Grammatical := by
    cases part with
    | unquoted name => simp only [IdentPart.WellFormed, IdentPart.Grammatical, start_iff_letter, continue_iff]
    | quoted name => simp only [IdentPart.WellFormed, IdentPart.Grammatical, ne_eq, String.toList_eq_nil_iff, Ident.nulChar]
  simp only [Ident.WellFormed, Ident.Grammatical, each]

-- The closing quote is the first that is not doubled.
theorem read_quoted_written (name rest : List Char) (closed : rest.head? ≠ some '"') :
    Ident.readQuoted (name.flatMap (Ident.writeChar false) ++ '"' :: rest) = .ok (name, rest) := by
  induction name with
  | nil =>
      rw [List.flatMap_nil, List.nil_append, Ident.readQuoted, if_pos rfl]
      intro tail _ doubled
      rw [doubled] at closed
      exact closed rfl
  | cons c name ih =>
      rw [List.flatMap_cons, List.append_assoc]
      by_cases quote : c = '"'
      · have doubled : Ident.writeChar false c = ['"', '"'] := if_pos quote
        rw [doubled, List.cons_append, List.singleton_append, Ident.readQuoted, ih, quote]
        rfl
      · have single : Ident.writeChar false c = [c] := by simp [Ident.writeChar, quote]
        rw [single, List.singleton_append, Ident.readQuoted, if_neg quote, ih]
        · rfl
        · intro _ isQuote
          exact absurd isQuote quote

-- What may stand behind a part, so that the part is not read on.
def IdentPart.EndsBefore : IdentPart → List Char → Prop
  | .unquoted _, rest => ∀ c ∈ rest.head?, c = '.'
  | .quoted _, rest => rest.head? ≠ some '"'

theorem part_ends (part : IdentPart) (rest : List Char) : part.EndsBefore ('.' :: rest) := by
  cases part with
  | unquoted name => simp [IdentPart.EndsBefore]
  | quoted name => simp [IdentPart.EndsBefore]

theorem part_ends_last (part : IdentPart) : part.EndsBefore [] := by
  cases part with
  | unquoted name => simp [IdentPart.EndsBefore]
  | quoted name => simp [IdentPart.EndsBefore]

theorem continue_ne_point {c : Char} (goesOn : Ident.isContinue c) : c ≠ '.' := by
  rintro rfl
  cases goesOn

theorem start_goes_on {c : Char} (start : Ident.isStart c) : Ident.isContinue c :=
  (continue_iff c).mpr (.inl ((start_iff_letter c).mp start))

theorem read_unquoted_written {name : String} (formed : (IdentPart.unquoted name).WellFormed) {rest : List Char}
    (ends : (IdentPart.unquoted name).EndsBefore rest) :
    Ident.readUnquoted (name.toList ++ rest) = .ok (.unquoted name, rest) := by
  obtain ⟨c, cs, chars, start, others⟩ := formed
  have plain : ∀ d ∈ name.toList, d != '.' := by
    rw [chars]
    intro d member
    rcases List.mem_cons.mp member with rfl | later
    · simpa using continue_ne_point (start_goes_on start)
    · simpa using continue_ne_point (others d later)
  have stops : rest.takeWhile (· != '.') = [] ∧ rest.dropWhile (· != '.') = rest := by
    cases rest with
    | nil => exact ⟨rfl, rfl⟩
    | cons d tail =>
        have point : d = '.' := ends d rfl
        simp [point]
  have taken : (name.toList ++ rest).takeWhile (· != '.') = c :: cs := by
    rw [List.takeWhile_append_of_pos plain, stops.1, List.append_nil, chars]
  have left : (name.toList ++ rest).dropWhile (· != '.') = rest := by
    rw [List.dropWhile_append_of_pos plain, stops.2]
  have good : cs.find? (fun d => !Ident.isContinue d) = none := by
    simpa using others
  unfold Ident.readUnquoted
  simp only [taken, left, start, good, if_true]
  rw [← chars, String.ofList_toList]

theorem written_of_read_unquoted {input rest : List Char} {part : IdentPart}
    (read : Ident.readUnquoted input = .ok (part, rest)) :
    input = Ident.writePart false part ++ rest ∧ part.EndsBefore rest := by
  unfold Ident.readUnquoted at read
  cases taken : input.takeWhile (· != '.') with
  | nil =>
      rw [taken] at read
      cases read
  | cons c cs =>
      simp only [taken] at read
      by_cases start : Ident.isStart c
      · rw [if_pos start] at read
        cases bad : cs.find? (fun d => !Ident.isContinue d) with
        | some d =>
            rw [bad] at read
            cases read
        | none =>
            rw [bad] at read
            cases read
            refine ⟨?_, fun d behind => ?_⟩
            · rw [Ident.writePart, String.toList_ofList, ← taken, List.takeWhile_append_dropWhile]
            · have stopped := List.head?_dropWhile_not (· != '.') input
              rw [Option.mem_def.mp behind] at stopped
              simpa using stopped
      · rw [if_neg start] at read
        cases read

theorem read_part_written {part : IdentPart} (formed : part.WellFormed) {rest : List Char} (ends : part.EndsBefore rest) :
    Ident.readPart (Ident.writePart false part ++ rest) = .ok (part, rest) := by
  cases part with
  | unquoted name =>
      rw [Ident.writePart, Ident.readPart]
      · exact read_unquoted_written formed ends
      · obtain ⟨c, cs, chars, start, -⟩ := formed
        rintro tail opened
        rw [chars] at opened
        cases opened
        cases start
  | quoted name =>
      have read := read_quoted_written name.toList rest ends
      have body : Ident.writePart false (.quoted name) ++ rest =
          '"' :: (name.toList.flatMap (Ident.writeChar false) ++ '"' :: rest) := by
        simp [Ident.writePart]
      rw [body, Ident.readPart, read]
      cases chars : name.toList with
      | nil => exact absurd chars formed.1
      | cons c cs => simp only [← chars, String.ofList_toList]

theorem written_of_read_part {input rest : List Char} {part : IdentPart} (read : Ident.readPart input = .ok (part, rest)) :
    input = Ident.writePart false part ++ rest ∧ part.EndsBefore rest := by
  unfold Ident.readPart at read
  split at read
  · rename_i tail
    split at read
    · cases read
    · cases read
    · rename_i name after _ quoted
      cases read
      obtain ⟨written, closed⟩ := written_of_read_quoted quoted
      refine ⟨?_, closed⟩
      simp [Ident.writePart, written]
  · exact written_of_read_unquoted read

theorem write_parts_cons (part : IdentPart) {parts : List IdentPart} (more : parts ≠ []) :
    Ident.writeParts false (part :: parts) = Ident.writePart false part ++ '.' :: Ident.writeParts false parts := by
  rw [Ident.writeParts]
  exact more

theorem write_part_some {part : IdentPart} (formed : part.WellFormed) : Ident.writePart false part ≠ [] := by
  cases part with
  | unquoted name =>
      obtain ⟨c, cs, chars, -⟩ := formed
      simp [Ident.writePart, chars]
  | quoted name => simp [Ident.writePart]

theorem write_parts_some {parts : List IdentPart} (some : parts ≠ []) (formed : ∀ part ∈ parts, part.WellFormed) :
    Ident.writeParts false parts ≠ [] := by
  fun_cases Ident.writeParts false parts with
  | case1 => exact absurd rfl some
  | case2 part => exact write_part_some (formed part (by simp))
  | case3 part rest more => simp

theorem read_parts_last {input : List Char} {part : IdentPart} (read : Ident.readPart input = .ok (part, [])) :
    Ident.readParts input = .ok [part] := by
  fun_cases Ident.readParts input with
  | case2 other last =>
      rw [read] at last
      cases last
      rfl
  | case1 _ found | case3 _ found | case4 _ _ _ found | case5 _ _ _ found | case6 _ _ _ _ _ found =>
      rw [read] at found
      cases found

theorem read_parts_more {input next : List Char} {part : IdentPart}
    (read : Ident.readPart input = .ok (part, '.' :: next)) (some : next ≠ []) :
    Ident.readParts input = (Ident.readParts next).map fun parts => part :: parts := by
  obtain ⟨c, rest, rfl⟩ := List.exists_cons_of_ne_nil some
  fun_cases Ident.readParts input with
  | case4 other d tail found fault failed =>
      rw [read] at found
      cases found
      rw [failed]
      rfl
  | case5 other d tail found parts others =>
      rw [read] at found
      cases found
      rw [others]
      rfl
  | case1 _ found | case2 _ found | case3 _ found =>
      rw [read] at found
      cases found
  | case6 other d tail alone more found =>
      rw [read] at found
      cases found
      exact absurd rfl (more c rest rfl)

theorem read_parts_written {parts : List IdentPart} (some : parts ≠ []) (formed : ∀ part ∈ parts, part.WellFormed) :
    Ident.readParts (Ident.writeParts false parts) = .ok parts := by
  induction parts with
  | nil => exact absurd rfl some
  | cons part parts ih =>
      have here := formed part (by simp)
      have later : ∀ p ∈ parts, p.WellFormed := fun p member => formed p (by simp [member])
      by_cases last : parts = []
      · have read := read_part_written here (part_ends_last part)
        rw [List.append_nil] at read
        rw [last]
        exact read_parts_last read
      · have read := read_part_written here (part_ends part (Ident.writeParts false parts))
        rw [write_parts_cons part last, read_parts_more read (write_parts_some last later), ih last later]
        rfl

theorem written_of_read_parts {input : List Char} {parts : List IdentPart} (read : Ident.readParts input = .ok parts) :
    input = Ident.writeParts false parts := by
  fun_induction Ident.readParts input generalizing parts with
  | case1 | case3 | case4 | case6 => cases read
  | case2 input part last =>
      cases read
      obtain ⟨written, -⟩ := written_of_read_part last
      rw [written, List.append_nil]
      rfl
  | case5 input part c rest more parts others ih =>
      cases read
      obtain ⟨written, -⟩ := written_of_read_part more
      have later := ih others
      have some : parts ≠ [] := by
        rintro rfl
        cases later
      rw [write_parts_cons part some, ← later]
      exact written

theorem written_part_no_nul {part : IdentPart} (formed : part.WellFormed) :
    Ident.nulChar ∉ Ident.writePart false part := by
  cases part with
  | unquoted name =>
      obtain ⟨c, cs, chars, start, others⟩ := formed
      rw [Ident.writePart, chars]
      intro member
      rcases List.mem_cons.mp member with rfl | later
      · cases start
      · cases others _ later
  | quoted name =>
      have notQuote : Ident.nulChar ≠ '"' := by decide
      rw [Ident.writePart, List.mem_cons, List.mem_append, mem_written_name, List.mem_singleton]
      simp only [notQuote, formed.2, or_self, not_false_iff]

theorem written_parts_no_nul {parts : List IdentPart} (formed : ∀ part ∈ parts, part.WellFormed) :
    Ident.nulChar ∉ Ident.writeParts false parts := by
  have notPoint : Ident.nulChar ≠ '.' := by decide
  fun_induction Ident.writeParts false parts with
  | case1 => simp
  | case2 part => exact written_part_no_nul (formed part (by simp))
  | case3 part rest more ih =>
      have first := written_part_no_nul (formed part (by simp))
      have others := ih fun p member => formed p (by simp [member])
      simp [notPoint, first, others]

-- A text that is refused is refused for what it is as an identifier.
theorem parse_refused {s : String} {e : Error} (refused : Ident.parse s = .error e) :
    ∃ fault, e = Ident.refuse s fault := by
  unfold Ident.parse at refused
  cases read : Ident.read s.toList with
  | ok i =>
      rw [read] at refused
      cases refused
  | error fault =>
      rw [read] at refused
      cases refused
      exact ⟨fault, rfl⟩

theorem parse_written {i : Ident} (formed : i.WellFormed) : Ident.parse i.toSql = .ok i := by
  have some := write_parts_some formed.1 formed.2
  have noNul := written_parts_no_nul formed.2
  have read : Ident.read (Ident.writeParts false i.parts) = .ok i := by
    rw [Ident.read, if_neg (by simpa using some), if_neg (by simpa using noNul), read_parts_written formed.1 formed.2]
    rfl
  rw [Ident.parse, Ident.toSql, String.toList_ofList, read]
  rfl

theorem written_of_parse {s : String} {i : Ident} (parsed : Ident.parse s = .ok i) : i.toSql = s := by
  unfold Ident.parse Ident.read at parsed
  split at parsed
  · cases parsed
  · split at parsed
    · cases parsed
    · cases read : Ident.readParts s.toList with
      | error fault =>
          rw [read] at parsed
          cases parsed
      | ok parts =>
          rw [read] at parsed
          cases parsed
          rw [Ident.toSql, ← written_of_read_parts read, String.ofList_toList]

theorem parse_iff_written (s : String) :
    (∀ i, Ident.parse s = .ok i ↔ i.Grammatical ∧ i.toSql = s) ∧
      ((∃ what, Ident.parse s = .error (.invalidIdentifier what)) ↔ ¬ ∃ i : Ident, i.Grammatical ∧ i.toSql = s) := by
  have accepted (i : Ident) : Ident.parse s = .ok i ↔ i.Grammatical ∧ i.toSql = s := by
    rw [← well_formed_iff_grammatical]
    constructor
    · exact fun parsed => ⟨parse_well_formed parsed, written_of_parse parsed⟩
    · rintro ⟨formed, rfl⟩
      exact parse_written formed
  refine ⟨accepted, ?_⟩
  simp only [← accepted]
  constructor
  · rintro ⟨what, refused⟩ ⟨i, parsed⟩
    rw [refused] at parsed
    cases parsed
  · intro none
    cases parsed : Ident.parse s with
    | ok i => exact absurd ⟨i, parsed⟩ none
    | error e =>
        obtain ⟨fault, rfl⟩ := parse_refused parsed
        exact ⟨_, rfl⟩

end QueryBuilder

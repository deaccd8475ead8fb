import QueryBuilder.Proofs.Shares
import QueryBuilder.ScriptedServer

/-!
The placeholder numbers as a reader of the compiled text finds them.

Main statement: no text brings in a dollar sign of its own, so the reader finds one number for each
parameter. The digits that stand right behind a placeholder are read on as digits of its number, whoever
wrote them; the numbers are one, two and so on in order exactly if no placeholder stands before a digit.
-/

set_option autoImplicit false

namespace QueryBuilder

-- The texts that a value brings into the statement: its own one, and those of what it holds.
inductive Value.Splices (t : String) : Value → Prop where
  | item {vs : List Value} {v : Value} (member : v ∈ vs) (inner : v.Splices t) : Splices t (.array vs)
  | text {f : Fragment} (own : f.text = t) : Splices t (.fragment f)
  | param {f : Fragment} {v : Value} (member : v ∈ f.params) (inner : v.Splices t) : Splices t (.fragment f)
  | query {q : Query} {f : Fragment} (made : q.toFragment = .ok f) (inner : Splices t (.fragment f)) :
      Splices t (.query q)

-- What stands behind every dollar sign that a digit follows, up to the last digit in a row.
def placeholderNumbers : List Char → List Nat
  | [] => []
  | c :: rest =>
      if c = '$' ∧ rest.takeWhile Char.isDigit ≠ [] then
        ScriptedServer.leadingNumber rest :: placeholderNumbers rest
      else placeholderNumbers rest

-- The digits between the front of some pieces and the first piece that is none.
def leadingDigits : List Piece → List Char
  | .char c :: rest => if c.isDigit then c :: leadingDigits rest else []
  | _ => []

-- The numbers of pieces that are printed from number `k` on, each with the digits behind it.
def numbersFrom (k : Nat) : List Piece → List Nat
  | [] => []
  | .char _ :: rest => numbersFrom k rest
  | .scalar _ :: rest => Nat.ofDigitChars 10 (leadingDigits rest) k :: numbersFrom (k + 1) rest

-- No placeholder stands right before a digit.
def DigitsApart (pieces : List Piece) : Prop :=
  ∀ before v c rest, pieces = before ++ .scalar v :: .char c :: rest → c.isDigit = false

def Undollared (pieces : List Piece) : Prop :=
  .char '$' ∉ pieces

theorem undollared_append {ps qs : List Piece} (left : Undollared ps) (right : Undollared qs) :
    Undollared (ps ++ qs) := by
  intro member
  rcases List.mem_append.mp member with inside | inside
  · exact left inside
  · exact right inside

theorem undollared_char {c : Char} {pieces : List Piece} (other : c ≠ '$') (rest : Undollared pieces) :
    Undollared (.char c :: pieces) := by
  intro member
  rcases List.mem_cons.mp member with same | inside
  · cases same
    exact other rfl
  · exact rest inside

theorem undollared_literal {text : String} (plain : '$' ∉ text.toList) : Undollared (literalPieces text) := by
  intro member
  obtain ⟨c, inside, same⟩ := List.mem_map.mp member
  cases same
  exact plain inside

-- A filled text has the characters of the text and those of the expansions, and no others.
theorem fills_undollared {text : List Char} {es : List (List Piece)} {pieces : List Piece} (fills : Fills text es pieces)
    (plain : '$' ∉ text) (each : ∀ e ∈ es, Undollared e) : Undollared pieces := by
  induction fills with
  | done => exact List.not_mem_nil
  | escape behind ih =>
      simp only [List.mem_cons, not_or] at plain
      exact undollared_char (by decide) (ih plain.2.2 each)
  | marker e behind ih =>
      simp only [List.mem_cons, not_or] at plain
      obtain ⟨first, others⟩ := List.forall_mem_cons.mp each
      exact undollared_append first (ih plain.2 others)
  | plain notMarker alone behind ih =>
      simp only [List.mem_cons, not_or] at plain
      exact undollared_char (Ne.symm plain.1) (ih plain.2 each)

theorem separated_undollared {expansions : List (List Piece)} (each : ∀ e ∈ expansions, Undollared e) :
    Undollared (separated expansions) := by
  induction expansions with
  | nil => exact List.not_mem_nil
  | cons e rest ih =>
      cases rest with
      | nil => exact each e (by simp)
      | cons f rest =>
          have comma : Undollared (literalPieces ", ") := undollared_literal (by decide)
          have others : Undollared (separated (f :: rest)) := ih fun g member => each g (List.mem_cons_of_mem _ member)
          exact undollared_append (undollared_append (each e (by simp)) comma) others

theorem related_undollared {vs : List Value} {es : List (List Piece)}
    (related : List.Forall₂ (fun v e => (∀ t, v.Splices t → '$' ∉ t.toList) → Undollared e) vs es)
    (plain : ∀ v ∈ vs, ∀ t, v.Splices t → '$' ∉ t.toList) : ∀ e ∈ es, Undollared e := by
  induction related with
  | nil => exact nofun
  | cons first _ ih =>
      obtain ⟨here, later⟩ := List.forall_mem_cons.mp plain
      exact List.forall_mem_cons.mpr ⟨first here, ih later⟩

theorem expand_undollared (v : Value) (pieces : List Piece) (expanded : v.expand = some pieces) :
    (∀ t, v.Splices t → '$' ∉ t.toList) → Undollared pieces := by
  refine expand_induct (P := fun v pieces => (∀ t, v.Splices t → '$' ∉ t.toList) → Undollared pieces)
    ?atom ?array ?fragment ?query v pieces expanded
  case atom =>
    intro v atom _
    simp [Undollared]
  case array =>
    intro vs es related plain
    exact separated_undollared (related_undollared related fun v member t inner => plain t (.item member inner))
  case fragment =>
    intro f es pieces related fills plain
    exact fills_undollared fills (plain f.text (.text rfl))
      (related_undollared related fun v member t inner => plain t (.param member inner))
  case query =>
    intro q f pieces made inner plain
    exact inner fun t spliced => plain t (.query made spliced)

theorem leading_number_digits (text : List Char) :
    ScriptedServer.leadingNumber text = Nat.ofDigitChars 10 (text.takeWhile Char.isDigit) 0 :=
  rfl

theorem digits_are_digits (k : Nat) : ∀ c ∈ Nat.toDigits 10 k, c.isDigit = true :=
  fun _ member => Nat.isDigit_of_mem_toDigits (by decide) (by decide) member

theorem placeholder_numbers_skip {text : List Char} (none : '$' ∉ text) (rest : List Char) :
    placeholderNumbers (text ++ rest) = placeholderNumbers rest := by
  induction text with
  | nil => rfl
  | cons c text ih =>
      have other : c ≠ '$' := fun same => none (same ▸ List.mem_cons_self)
      rw [List.cons_append, placeholderNumbers, if_neg fun found => other found.1]
      exact ih fun member => none (List.mem_cons_of_mem _ member)

-- The digits of the number and those that follow are one run to the reader.
theorem placeholder_numbers_printed (k : Nat) (rest : List Char) :
    placeholderNumbers ('$' :: (Nat.toDigits 10 k ++ rest)) =
      Nat.ofDigitChars 10 (rest.takeWhile Char.isDigit) k :: placeholderNumbers rest := by
  have run : (Nat.toDigits 10 k ++ rest).takeWhile Char.isDigit = Nat.toDigits 10 k ++ rest.takeWhile Char.isDigit :=
    List.takeWhile_append_of_pos (digits_are_digits k)
  have some : Nat.toDigits 10 k ++ rest.takeWhile Char.isDigit ≠ [] := by
    simp [Nat.toDigits_ne_nil]
  have undollared : '$' ∉ Nat.toDigits 10 k := by
    intro member
    have digit := digits_are_digits k '$' member
    cases digit
  rw [placeholderNumbers, leading_number_digits, run, if_pos ⟨rfl, some⟩, Nat.ofDigitChars_append,
    Nat.ofDigitChars_toDigits (by decide) (by decide), placeholder_numbers_skip undollared]

-- What a placeholder is printed as starts with a dollar sign, so no run of digits goes past it.
theorem render_leading_digits (k : Nat) (pieces : List Piece) :
    (render k pieces).toList.takeWhile Char.isDigit = leadingDigits pieces := by
  induction pieces with
  | nil => rfl
  | cons p rest ih =>
      cases p with
      | scalar v => simp [render, leadingDigits]
      | char c =>
          have printed : (render k (.char c :: rest)).toList = c :: (render k rest).toList := by
            simp [render]
          rw [printed, leadingDigits, List.takeWhile_cons, ih]

theorem placeholder_numbers_render {pieces : List Piece} (plain : Undollared pieces) (k : Nat) :
    placeholderNumbers (render k pieces).toList = numbersFrom k pieces := by
  induction pieces generalizing k with
  | nil => rfl
  | cons p rest ih =>
      have behind : Undollared rest := fun member => plain (List.mem_cons_of_mem _ member)
      cases p with
      | char c =>
          have other : c ≠ '$' := fun same => plain (same ▸ List.mem_cons_self)
          have printed : (render k (.char c :: rest)).toList = c :: (render k rest).toList := by
            simp [render]
          rw [printed, placeholderNumbers, if_neg fun found => other found.1, numbersFrom, ih behind]
      | scalar v =>
          have printed : (render k (.scalar v :: rest)).toList =
              '$' :: (Nat.toDigits 10 k ++ (render (k + 1) rest).toList) := by
            simp [render]
          rw [printed, placeholder_numbers_printed, render_leading_digits, numbersFrom, ih behind]

theorem numbers_from_length (k : Nat) (pieces : List Piece) :
    (numbersFrom k pieces).length = (scalars pieces).length := by
  induction pieces generalizing k with
  | nil => rfl
  | cons p rest ih =>
      cases p with
      | char c => exact ih k
      | scalar v => simp [numbersFrom, scalars, ih]

theorem digits_apart_char (c : Char) (rest : List Piece) : DigitsApart (.char c :: rest) ↔ DigitsApart rest := by
  constructor
  · intro apart before v d after split
    exact apart (.char c :: before) v d after (by rw [split, List.cons_append])
  · intro apart before v d after split
    cases before with
    | nil => cases split
    | cons p before => exact apart before v d after (List.cons.inj split).2

theorem digits_apart_scalar (v : Value) (rest : List Piece) :
    DigitsApart (.scalar v :: rest) ↔ leadingDigits rest = [] ∧ DigitsApart rest := by
  constructor
  · intro apart
    refine ⟨?_, fun before w d after split => ?_⟩
    · cases rest with
      | nil => rfl
      | cons p rest =>
          cases p with
          | scalar w => rfl
          | char c =>
              have other : c.isDigit = false := apart [] v c rest rfl
              rw [leadingDigits, other, if_neg Bool.false_ne_true]
    · exact apart (.scalar v :: before) w d after (by rw [split, List.cons_append])
  · rintro ⟨none, apart⟩ before w d after split
    cases before with
    | cons p before => exact apart before w d after (List.cons.inj split).2
    | nil =>
        obtain ⟨-, rfl⟩ := List.cons.inj split
        cases digit : d.isDigit with
        | false => rfl
        | true =>
            rw [leadingDigits, digit, if_pos rfl] at none
            cases none

theorem le_of_digit_chars (digits : List Char) (k : Nat) : k ≤ Nat.ofDigitChars 10 digits k := by
  induction digits generalizing k with
  | nil => exact Nat.le_refl k
  | cons d digits ih =>
      have grown := ih (10 * k + (d.toNat - 48))
      calc
        k ≤ 10 * k + (d.toNat - 48) := by omega
        _ ≤ Nat.ofDigitChars 10 (d :: digits) k := grown

-- A digit behind a number that is not zero makes it greater.
theorem digits_behind_change {k : Nat} (positive : 0 < k) (digits : List Char) :
    Nat.ofDigitChars 10 digits k = k ↔ digits = [] := by
  constructor
  · intro same
    cases digits with
    | nil => rfl
    | cons d digits =>
        have grown : 10 * k + (d.toNat - 48) ≤ Nat.ofDigitChars 10 (d :: digits) k := le_of_digit_chars digits _
        omega
  · rintro rfl
    rfl

theorem numbers_in_order {k : Nat} (positive : 0 < k) (pieces : List Piece) :
    numbersFrom k pieces = List.range' k (scalars pieces).length ↔ DigitsApart pieces := by
  induction pieces generalizing k with
  | nil => simp [numbersFrom, scalars, DigitsApart]
  | cons p rest ih =>
      cases p with
      | char c => rw [digits_apart_char, numbersFrom, scalars, ih positive]
      | scalar v =>
          rw [digits_apart_scalar, numbersFrom, scalars, List.length_cons, List.range'_succ, List.cons.injEq,
            digits_behind_change positive, ih (Nat.succ_pos k)]

-- The server counts as many parameters as the highest number tells.
theorem param_count_highest (text : List Char) :
    ScriptedServer.paramCount text = (placeholderNumbers text).foldr max 0 := by
  induction text with
  | nil => rfl
  | cons c rest ih =>
      rw [ScriptedServer.paramCount, placeholderNumbers, ih]
      by_cases dollar : c = '$'
      · by_cases none : rest.takeWhile Char.isDigit = []
        · rw [leading_number_digits, none, if_pos dollar, if_neg fun found => found.2 rfl]
          exact Nat.zero_max _
        · rw [if_pos dollar, if_pos ⟨dollar, none⟩, List.foldr_cons]
      · rw [if_neg dollar, if_neg fun found => dollar found.1]
        exact Nat.zero_max _

theorem highest_in_order (n m : Nat) : (List.range' 1 n).foldr max m = max n m := by
  induction n generalizing m with
  | zero => simp
  | succ n ih =>
      rw [List.range'_1_concat, List.foldr_append, ih, List.foldr_cons, List.foldr_nil]
      omega

theorem placeholders_read_with_digits (text : String) (params : List Value) (c : Compiled)
    (plain : '$' ∉ text.toList) (spliced : ∀ v ∈ params, ∀ t, v.Splices t → '$' ∉ t.toList)
    (numbered : number text params = .ok c) :
    ∃ pieces, expandText text params = some pieces ∧ c = ⟨render 1 pieces, scalars pieces⟩ ∧
      placeholderNumbers c.sql.toList = numbersFrom 1 pieces ∧
      (placeholderNumbers c.sql.toList).length = c.params.length ∧
      (placeholderNumbers c.sql.toList = List.range' 1 c.params.length ↔ DigitsApart pieces) ∧
      (DigitsApart pieces → ScriptedServer.paramCount c.sql.toList = c.params.length) := by
  obtain ⟨pieces, expanded, same⟩ := number_expands.mp numbered
  have form : c = ⟨render 1 pieces, scalars pieces⟩ := by
    rw [same]
    simp [Compiled.extend, Compiled.empty]
  obtain ⟨es, all, filled⟩ := Option.bind_eq_some_iff.mp expanded
  have each := related_undollared ((expand_all_related all).imp expand_undollared) spliced
  have undollared : Undollared pieces := fills_undollared (fills_of_fill filled) plain each
  have read : placeholderNumbers c.sql.toList = numbersFrom 1 pieces := by
    rw [form, placeholder_numbers_render undollared]
  have ordered : placeholderNumbers c.sql.toList = List.range' 1 c.params.length ↔ DigitsApart pieces := by
    rw [read, form]
    exact numbers_in_order Nat.one_pos pieces
  have many : (placeholderNumbers c.sql.toList).length = c.params.length := by
    rw [read, form]
    exact numbers_from_length 1 pieces
  refine ⟨pieces, expanded, form, read, many, ordered, fun apart => ?_⟩
  rw [param_count_highest, ordered.mpr apart, highest_in_order, Nat.max_zero]

-- The marker of the fragment is the last of its text, and the digit behind it stands in the statement.
def splicedText : String :=
  "id IN (?) AND ?0"

def splicedParams : List Value :=
  [.array [.int 1, .int 2], .fragment ⟨"page < ?", [.int 3], none⟩]

def splicedForm : Compiled where
  sql := "id IN ($1, $2) AND page < $30"
  params := [.int 1, .int 2, .int 3]

theorem spliced_placeholders_read_with_digits :
    '$' ∉ splicedText.toList ∧ (∀ v ∈ splicedParams, ∀ t, v.Splices t → '$' ∉ t.toList) ∧
    number splicedText splicedParams = .ok splicedForm ∧ placeholderNumbers splicedForm.sql.toList = [1, 2, 30] ∧
    ∃ pieces, expandText splicedText splicedParams = some pieces ∧ splicedForm = ⟨render 1 pieces, scalars pieces⟩ ∧
      placeholderNumbers splicedForm.sql.toList = numbersFrom 1 pieces ∧
      (placeholderNumbers splicedForm.sql.toList).length = splicedForm.params.length ∧
      (placeholderNumbers splicedForm.sql.toList = List.range' 1 splicedForm.params.length ↔ DigitsApart pieces) ∧
      (DigitsApart pieces → ScriptedServer.paramCount splicedForm.sql.toList = splicedForm.params.length) := by
  have plain : '$' ∉ splicedText.toList := by
    decide
  have spliced : ∀ v ∈ splicedParams, ∀ t, v.Splices t → '$' ∉ t.toList := by
    simp only [splicedParams, List.forall_mem_cons, List.not_mem_nil]
    refine ⟨fun t inner => ?_, fun t inner => ?_, nofun⟩
    · cases inner with
      | item member inner =>
          simp only [List.mem_cons, List.not_mem_nil, or_false] at member
          rcases member with rfl | rfl <;> cases inner
    · cases inner with
      | text own =>
          rw [← own]
          decide
      | param member inner =>
          cases List.mem_singleton.mp member
          cases inner
  have numbered : number splicedText splicedParams = .ok splicedForm := by
    cbv
  have read : placeholderNumbers splicedForm.sql.toList = [1, 2, 30] :=
    rfl
  exact ⟨plain, spliced, numbered, read,
    placeholders_read_with_digits splicedText splicedParams splicedForm plain spliced numbered⟩

theorem digit_joins_placeholder :
    ¬ ∀ (text : String) (params : List Value) (c : Compiled), '$' ∉ text.toList →
      (∀ v ∈ params, ∀ t, v.Splices t → '$' ∉ t.toList) → number text params = .ok c →
      placeholderNumbers c.sql.toList = List.range' 1 c.params.length := by
  intro ordered
  have spliced : ∀ v ∈ [Value.int 1], ∀ t, v.Splices t → '$' ∉ t.toList := by
    intro v member t inner
    cases List.mem_singleton.mp member
    cases inner
  have numbered : number "?0" [.int 1] = .ok ⟨"$10", [.int 1]⟩ := by
    cbv
  have read : placeholderNumbers "$10".toList = [1] := ordered "?0" [.int 1] _ (by decide) spliced numbered
  have ten : placeholderNumbers "$10".toList = [10] :=
    rfl
  rw [ten] at read
  cases read

end QueryBuilder

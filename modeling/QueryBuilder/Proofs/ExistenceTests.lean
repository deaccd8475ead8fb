import Mathlib
import QueryBuilder.Prepared
import QueryBuilder.Proofs.NoiseExtent
import QueryBuilder.Proofs.ParenthesisPairs
import QueryBuilder.Proofs.StatementRuns

/-!
Statements that ask whether another statement has rows.

Main statement: what does not compile, and what does not select as far as its first word tells, sends
nothing. Anything else sends one statement with the parameters as they are: its text encloses the
compiled text without the blanks and one semicolon at its end. A further semicolon stays in it, and the closing
parenthesis holds exactly when nothing before it is left open; of a text that leaves no quote and no
block comment open, that is when its body does not end in a line comment.
-/

set_option autoImplicit false

namespace QueryBuilder

namespace Text

section Trailing

variable {tail : List Char}

-- The walk over the noise reads a character ahead, but never into what is behind the statement.
theorem ahead_behind (a b d : Char) (other : isTrailing d = false) (trailing : ∀ c ∈ tail, isTrailing c)
    (text : List Char) : a = b ∧ (text ++ tail).head? = some d ↔ a = b ∧ text.head? = some d := by
  cases text with
  | cons c text => rfl
  | nil =>
      have outside : tail.head? ≠ some d := by
        intro found
        exact absurd rfl (trailing_ne (trailing d (List.mem_of_head? found)) other)
      simp [outside]

theorem noise_dropped_suffix (place : NoisePlace) (text : List Char) : dropNoiseFrom place text <:+ text := by
  fun_induction dropNoiseFrom place text with
  | case1 => exact List.nil_suffix
  | case5 c rest => exact List.suffix_rfl
  | case2 c rest _ ih | case3 c rest _ _ ih | case4 c rest _ _ _ ih | case6 c rest ih | case7 c rest ih
  | case8 c rest ih =>
      exact ih.trans (List.suffix_cons c rest)

theorem noise_dropped_behind (place : NoisePlace) (trailing : ∀ c ∈ tail, isTrailing c) (text : List Char) :
    ∃ left, (∀ c ∈ left, isTrailing c) ∧
      dropNoiseFrom place (text ++ tail) = dropNoiseFrom place text ++ left := by
  have atLine (c : Char) (rest : List Char) := ahead_behind c '-' '-' rfl trailing rest
  have atBlock (c : Char) (rest : List Char) := ahead_behind c '/' '*' rfl trailing rest
  have atEnd (c : Char) (rest : List Char) := ahead_behind c '*' '/' rfl trailing rest
  fun_induction dropNoiseFrom place text with
  | case1 place =>
      have within := noise_dropped_suffix place tail
      exact ⟨dropNoiseFrom place tail, fun c member => trailing c (within.mem member), rfl⟩
  | case2 c rest line ih => rwa [List.cons_append, dropNoiseFrom, if_pos ((atLine c rest).mpr line)]
  | case3 c rest line block ih =>
      rwa [List.cons_append, dropNoiseFrom, if_neg (mt (atLine c rest).mp line), if_pos ((atBlock c rest).mpr block)]
  | case4 c rest line block skipped ih =>
      rwa [List.cons_append, dropNoiseFrom, if_neg (mt (atLine c rest).mp line), if_neg (mt (atBlock c rest).mp block),
        if_pos skipped]
  | case5 c rest line block kept =>
      refine ⟨tail, trailing, ?_⟩
      rw [List.cons_append, dropNoiseFrom, if_neg (mt (atLine c rest).mp line), if_neg (mt (atBlock c rest).mp block),
        if_neg kept]
  | case6 c rest ih => exact ih
  | case7 c rest ih => rwa [List.cons_append, dropNoiseFrom, if_congr (atEnd c rest) rfl rfl]
  | case8 c rest ih => exact ih

theorem letter_not_trailing {a c : Char} (letter : a.isAlpha) (trailing : isTrailing c) : sameLetter a c = false := by
  refine Bool.eq_false_iff.mpr fun same => ?_
  have also : c.isAlpha := (same_letter_alpha same).symm.trans letter
  rcases Bool.or_eq_true_iff.mp trailing with blank | semicolon
  · rw [letter_not_blank also] at blank
    cases blank
  · rw [beq_iff_eq.mp semicolon] at also
    cases also

theorem starts_behind {word : List Char} (letters : ∀ w ∈ word, w.isAlpha) (trailing : ∀ c ∈ tail, isTrailing c)
    (text : List Char) : startsWithWord word (text ++ tail) = startsWithWord word text := by
  fun_induction startsWithWord word text with
  | case1 => rfl
  | case2 w ws =>
      rw [List.nil_append]
      cases tail with
      | nil => rfl
      | cons c tail =>
          have other := letter_not_trailing (letters w List.mem_cons_self) (trailing c List.mem_cons_self)
          rw [startsWithWord, other]
          rfl
  | case3 w ws c cs ih =>
      rw [List.cons_append, startsWithWord, ih (fun v member => letters v (List.mem_cons_of_mem w member))]

theorem opens_behind {word : String} (letters : ∀ w ∈ word.toList, w.isAlpha)
    (trailing : ∀ c ∈ tail, isTrailing c) (text : List Char) : opensWith word (text ++ tail) = opensWith word text := by
  obtain ⟨left, still, dropped⟩ := noise_dropped_behind .between trailing text
  rw [opensWith, opensWith, dropNoise, dropped, starts_behind letters still]
  rfl

end Trailing

theorem trim_end_split (text : List Char) :
    ∃ blanks, text = trimEnd text ++ blanks ∧ (∀ c ∈ blanks, isBlank c) ∧
      ∀ c, (trimEnd text).getLast? = some c → isBlank c = false := by
  refine ⟨text.rtakeWhile isBlank, List.rdropWhile_append_rtakeWhile.symm, fun c => List.mem_rtakeWhile_imp, ?_⟩
  intro c last
  have nonempty : trimEnd text ≠ [] := by
    intro empty
    rw [empty] at last
    cases last
  rw [List.getLast?_eq_some_getLast nonempty] at last
  cases last
  exact Bool.eq_false_iff.mpr (List.rdropWhile_last_not isBlank text nonempty)

theorem no_semicolon {blanks : List Char} (blank : ∀ c ∈ blanks, isBlank c) : blanks.count ';' = 0 :=
  List.count_eq_zero.mpr fun member => Bool.false_ne_true (blank ';' member)

end Text

namespace Prepared

-- How the body of a test comes from a compiled text: what is cut off, and what is left of it in the last place.
structure Cut (text body tail : List Char) : Prop where
  split : text = body ++ tail
  trailing : ∀ c ∈ tail, Text.isTrailing c
  once : tail.count ';' ≤ 1
  last : ∀ c, body.getLast? = some c → Text.isBlank c = false
  taken : body.getLast? = some ';' → tail.count ';' = 1

theorem body_terminated {sql : String} {front : List Char} (ends : Text.trimEnd sql.toList = front ++ [';']) :
    body sql = Text.trimEnd front := by
  simp only [body, ends, List.getLast?_concat, List.dropLast_concat]

theorem body_bare {sql : String} (bare : (Text.trimEnd sql.toList).getLast? ≠ some ';') :
    body sql = Text.trimEnd sql.toList := by
  simp only [body]

theorem blanks_trailing {blanks : List Char} (blank : ∀ c ∈ blanks, Text.isBlank c) :
    ∀ c ∈ blanks, Text.isTrailing c :=
  fun c member => Bool.or_eq_true_iff.mpr (.inl (blank c member))

theorem body_cut (sql : String) : ∃ tail, Cut sql.toList (body sql) tail := by
  obtain ⟨blanks, split, blank, last⟩ := Text.trim_end_split sql.toList
  by_cases ends : (Text.trimEnd sql.toList).getLast? = some ';'
  · obtain ⟨front, terminated⟩ := List.getLast?_eq_some_iff.mp ends
    obtain ⟨before, split', blank', last'⟩ := Text.trim_end_split front
    have count : (before ++ ';' :: blanks).count ';' = 1 := by
      rw [List.count_append, List.count_cons, Text.no_semicolon blank, Text.no_semicolon blank']
      rfl
    have cut : sql.toList = Text.trimEnd front ++ (before ++ ';' :: blanks) := by
      rw [← List.append_assoc, ← split', List.append_cons, ← terminated]
      exact split
    have trailing : ∀ c ∈ before ++ ';' :: blanks, Text.isTrailing c :=
      List.forall_mem_append.mpr ⟨blanks_trailing blank', List.forall_mem_cons.mpr ⟨rfl, blanks_trailing blank⟩⟩
    refine ⟨before ++ ';' :: blanks, ?_⟩
    rw [body_terminated terminated]
    exact ⟨cut, trailing, count.le, last', fun _ => count⟩
  · have none := Text.no_semicolon blank
    refine ⟨blanks, ?_⟩
    rw [body_bare ends]
    exact ⟨split, blanks_trailing blank, by omega, last, fun semicolon => absurd semicolon ends⟩

-- A body goes on behind the stripped text only to a semicolon that was not the last one.
theorem cut_stripped {text body tail : List Char} (cut : Cut text body tail) :
    body = text.rdropWhile Text.isTrailing ↔ (text.rtakeWhile Text.isTrailing).count ';' ≤ 1 := by
  have trailing : ∀ c ∈ tail.reverse, Text.isTrailing c := fun c member => cut.trailing c (List.mem_reverse.mp member)
  have stripped : text.rdropWhile Text.isTrailing = body.rdropWhile Text.isTrailing := by
    rw [cut.split, List.rdropWhile, List.reverse_append, List.dropWhile_append_of_pos trailing]
    rfl
  have behind : text.rtakeWhile Text.isTrailing = body.rtakeWhile Text.isTrailing ++ tail := by
    rw [cut.split, List.rtakeWhile, List.reverse_append, List.takeWhile_append_of_pos trailing, List.reverse_append,
      List.reverse_reverse]
    rfl
  have whole : body.rdropWhile Text.isTrailing ++ body.rtakeWhile Text.isTrailing = body :=
    List.rdropWhile_append_rtakeWhile
  rw [stripped, behind, List.count_append]
  cases kept : body.rtakeWhile Text.isTrailing using List.reverseRecOn with
  | nil =>
      rw [kept, List.append_nil] at whole
      simpa [whole] using cut.once
  | append_singleton front c =>
      have ends : body.getLast? = some c := by
        rw [← whole, kept, ← List.append_assoc, List.getLast?_concat]
      have semicolon : c = ';' := by
        have trailing : Text.isTrailing c := List.mem_rtakeWhile_imp (by rw [kept]; simp)
        rw [Text.isTrailing, cut.last c ends] at trailing
        exact beq_iff_eq.mp trailing
      subst semicolon
      have taken := cut.taken ends
      constructor
      · intro same
        rw [← same, kept] at whole
        simp at whole
      · intro few
        rw [List.count_append, List.count_singleton_self] at few
        omega

-- The first word of a compiled text is that of its body.
theorem selection_of_body (sql : String) : isSelection (body sql) = isSelection sql.toList := by
  obtain ⟨tail, cut⟩ := body_cut sql
  have select : ∀ w ∈ "SELECT".toList, w.isAlpha := List.all_eq_true.mp rfl
  have withs : ∀ w ∈ "WITH".toList, w.isAlpha := List.all_eq_true.mp rfl
  rw [isSelection, isSelection, cut.split, Text.opens_behind select cut.trailing,
    Text.opens_behind withs cut.trailing]

def Selects (text : List Char) : Prop :=
  Text.LedBy "SELECT" text ∨ Text.LedBy "WITH" text

theorem selection_iff {text : List Char} (untangled : Text.Untangled text) :
    isSelection text = true ↔ Selects text := by
  rw [isSelection, Bool.or_eq_true_iff, Text.opens_with_iff (w := 'S') rfl rfl untangled,
    Text.opens_with_iff (w := 'W') rfl rfl untangled]
  rfl

theorem existence_chars (body : List Char) :
    (existence body).toList = "SELECT EXISTS(".toList ++ body ++ [')'] := by
  simp only [existence, String.toList_append, String.toList_ofList]
  rfl

-- What the body is to the text, and what the pair of parentheses around it holds.
structure Wraps (text body : List Char) : Prop where
  cut : ∃ tail, Cut text body tail
  stripped : body = text.rdropWhile Text.isTrailing ↔ (text.rtakeWhile Text.isTrailing).count ';' ≤ 1
  paired : Lexer.Paired text → (Lexer.Paired (existence body).toList ↔ Lexer.tokens body ≠ none)
  -- The line end closes a comment in the last line of the text, as the end of the text does.
  closed : Lexer.tokens (text ++ ['\n']) ≠ none →
    (Lexer.tokens body = none ↔ (Lexer.scan .between body).1 = .lineComment)

theorem body_wraps (sql : String) : Wraps sql.toList (body sql) := by
  obtain ⟨tail, cut⟩ := body_cut sql
  have other : ∀ c ∈ tail, c ≠ '(' ∧ c ≠ ')' := fun c member =>
    ⟨Text.trailing_ne (cut.trailing c member) rfl, Text.trailing_ne (cut.trailing c member) rfl⟩
  refine ⟨⟨tail, cut⟩, cut_stripped cut, fun paired => ?_, fun closed => ?_⟩
  · rw [cut.split, Lexer.paired_behind other] at paired
    rw [existence_chars]
    have fronted : Lexer.scan .between "SELECT EXISTS(".toList =
        (.between, [.lexeme "SELECT".toList, .lexeme "EXISTS".toList, .opening .round]) := rfl
    exact Lexer.enclosed_paired fronted rfl paired
  · have trailing : ∀ c ∈ tail ++ ['\n'], Text.isTrailing c :=
      List.forall_mem_append.mpr ⟨cut.trailing, List.forall_mem_singleton.mpr rfl⟩
    rw [cut.split, List.append_assoc] at closed
    exact Lexer.open_behind_trailing trailing closed

end Prepared

-- What can be asked whether it has rows.
inductive Executable where
  | fragment (f : Fragment)
  | query (q : Query)
  | compiled (c : Compiled)

namespace Executable

def compile : Executable → Except Error Compiled
  | fragment f => f.compile
  | query q => q.compile
  | compiled c => .ok c

def tag : Executable → Option String
  | fragment f => f.tag
  | query _ | compiled _ => none

def prepare : Executable → Except Error Prepared
  | fragment f => Prepared.ofFragment f
  | query q => Prepared.ofQuery q
  | compiled c => .ok (.ofCompiled c)

def hasRow {σ : Type} (client : Client σ) (x : Executable) : Run σ Bool :=
  match x.prepare with
  | .ok p => p.hasRow client
  | .error e => fun s => .error e s

theorem prepare_compiled (x : Executable) : x.prepare = x.compile.map fun c => ⟨c, x.tag⟩ := by
  cases x <;> rfl

end Executable

section Sending

variable {σ α : Type}

theorem recorded_in_step (call : Option String → String → List Value → Run σ α) (tag : Option String) (sql : String)
    (params : List Value) : InStep Recorded.behind (Recorded.call call tag sql params) (call tag sql params) := by
  intro s
  simp only [Recorded.call, Run.zoom]
  cases call tag sql params s.behind <;> rfl

theorem has_row_selects {p : Prepared} (selects : Prepared.isSelection p.compiled.sql.toList = true)
    (client : Client σ) :
    p.hasRow client =
      Client.andThen (client.queryOne p.tag (Prepared.existence (Prepared.body p.compiled.sql)) p.compiled.params)
        fun row => (row.scalar Prepared.wantFlag).map fun value => value == .bool true := by
  rw [← Prepared.selection_of_body] at selects
  exact if_pos selects

theorem has_row_refused {p : Prepared} (refused : Prepared.isSelection p.compiled.sql.toList = false)
    (client : Client σ) (s : σ) :
    p.hasRow client s =
      .error (.queryFailed (String.ofList (Prepared.body p.compiled.sql)) p.compiled.params Prepared.noSelection) s := by
  rw [← Prepared.selection_of_body] at refused
  exact congrFun (if_neg (Bool.eq_false_iff.mp refused)) s

theorem has_row_in_step (client : Client σ) (p : Prepared) :
    InStep Recorded.behind (p.hasRow client.recorded) (p.hasRow client) := by
  cases selects : Prepared.isSelection p.compiled.sql.toList with
  | true =>
      rw [has_row_selects selects, has_row_selects selects]
      exact in_step_and_then (recorded_in_step client.queryOne _ _ _) _
  | false =>
      intro s
      rw [has_row_refused selects, has_row_refused selects]
      rfl

theorem has_row_sent {p : Prepared} (selects : Prepared.isSelection p.compiled.sql.toList = true)
    (client : Client σ) (s : Recorded σ) :
    (Run.after (p.hasRow client.recorded) s).sent =
      s.sent ++ [⟨p.tag, Prepared.existence (Prepared.body p.compiled.sql), p.compiled.params⟩] := by
  rw [has_row_selects selects, after_and_then]
  exact congrArg Recorded.sent (recorded_after client.queryOne _ _ _ s)

end Sending

theorem existence_test_sends {σ : Type} (client : Client σ) (x : Executable) (s : Recorded σ) :
    seenThrough Recorded.behind (x.hasRow client.recorded s) = x.hasRow client s.behind ∧
    (∀ e, x.compile = .error e → x.hasRow client.recorded s = .error e s) ∧
    ∀ c, x.compile = .ok c →
      let text := c.sql.toList
      let body := Prepared.body c.sql
      (Prepared.isSelection text = false →
        x.hasRow client.recorded s = .error (.queryFailed (String.ofList body) c.params Prepared.noSelection) s) ∧
      (Prepared.isSelection text = true →
        (Run.after (x.hasRow client.recorded) s).sent = s.sent ++ [⟨x.tag, Prepared.existence body, c.params⟩]) ∧
      (Text.Untangled text → (Prepared.isSelection text = true ↔ Prepared.Selects text)) ∧
      Prepared.Wraps text body := by
  refine ⟨?_, fun e failed => ?_, fun c compiled => ?_⟩
  · unfold Executable.hasRow
    cases x.prepare with
    | error e => rfl
    | ok p => exact has_row_in_step client p s
  · rw [Executable.hasRow, Executable.prepare_compiled, failed]
    rfl
  · intro text body
    have prepared : x.hasRow client.recorded = Prepared.hasRow client.recorded ⟨c, x.tag⟩ := by
      rw [Executable.hasRow, Executable.prepare_compiled, compiled]
      rfl
    rw [prepared]
    refine ⟨fun refused => ?_, fun selects => ?_, Prepared.selection_iff, Prepared.body_wraps c.sql⟩
    · exact has_row_refused (p := ⟨c, x.tag⟩) refused client.recorded s
    · exact has_row_sent (p := ⟨c, x.tag⟩) selects client s

theorem named_user_test_sends :
    (Executable.query namedUser).compile = .ok ⟨"SELECT name FROM users WHERE id = $1", [.int 7]⟩ ∧
    Text.Untangled "SELECT name FROM users WHERE id = $1".toList ∧
    (Run.after ((Executable.query namedUser).hasRow countingClient.recorded) ⟨[], []⟩).sent =
      [⟨none, "SELECT EXISTS(SELECT name FROM users WHERE id = $1)", [.int 7]⟩] := by
  have untangled : Text.Untangled "SELECT name FROM users WHERE id = $1".toList := Text.untangled_letter (c := 'S') rfl _
  have sends := (existence_test_sends countingClient (.query namedUser) ⟨[], []⟩).2.2 _ named_user_compiles
  have selects := (sends.2.2.1 untangled).mpr (.inl ⟨[], _, nofun, rfl, rfl⟩)
  exact ⟨named_user_compiles, untangled, sends.2.1 selects⟩

-- A second semicolon is sent along, a comment at the end takes the closing parenthesis in, and behind
-- a comment that its slash closes no selection is found.
theorem wrapper_takes_too_much :
    (¬ ∀ c : Compiled, Prepared.Selects c.sql.toList →
      (Run.after ((Executable.compiled c).hasRow countingClient.recorded) ⟨[], []⟩).sent =
        [⟨none, Prepared.existence (c.sql.toList.rdropWhile Text.isTrailing), c.params⟩]) ∧
    (¬ ∀ c : Compiled, Lexer.Paired c.sql.toList → Lexer.Paired (Prepared.existence (Prepared.body c.sql)).toList) ∧
    ¬ ∀ c : Compiled, Prepared.Selects c.sql.toList → Prepared.isSelection c.sql.toList := by
  refine ⟨fun all => ?_, fun all => ?_, fun all => ?_⟩
  · have selects : Prepared.Selects "SELECT 1;;".toList := .inl ⟨[], _, nofun, rfl, rfl⟩
    have sent := congrArg (List.map Sent.sql) (all ⟨"SELECT 1;;", []⟩ selects)
    revert sent
    decide
  · exact absurd (all ⟨"SELECT 1 -- one", []⟩ (by decide)) (by decide)
  · have selects : Prepared.Selects "/*/ a */SELECT 1".toList :=
      .inl ⟨[.block "/ a ".toList], _, by decide, rfl, rfl⟩
    exact absurd (all ⟨"/*/ a */SELECT 1", []⟩ selects) (by decide)

end QueryBuilder

import QueryBuilder.Proofs.Lexemes
import QueryBuilder.Text.Blank

/-!
Parentheses outside quotes and comments, and a pair of them written around a text.

Main statements: around a text whose parentheses stand in pairs the new pair holds exactly when the text
leaves no quote and no comment open, since what is open takes the closing one in. When blanks and
semicolons are taken off the end of a text that left nothing open, what is open then is the comment of
its last line.
-/

set_option autoImplicit false

namespace QueryBuilder

namespace Text

-- What may stand behind a statement.
def isTrailing (c : Char) : Bool :=
  isBlank c || c == ';'

theorem trailing_ne {c d : Char} (trailing : isTrailing c) (other : isTrailing d = false) : c ≠ d := by
  rintro rfl
  rw [other] at trailing
  cases trailing

end Text

namespace Token

def isParenthesis : Token → Bool
  | .opening .round | .closing .round => true
  | _ => false

-- How many parentheses are open behind a token; none when one closes that was not opened.
def level (d : Nat) : Token → Option Nat
  | .opening .round => some (d + 1)
  | .closing .round => if d = 0 then none else some (d - 1)
  | _ => some d

theorem level_raised {d e : Nat} {t : Token} (levelled : t.level d = some e) : t.level (d + 1) = some (e + 1) := by
  cases t with
  | opening b =>
      cases b <;>
        · cases levelled
          rfl
  | closing b =>
      cases b with
      | round =>
          cases d with
          | zero => cases levelled
          | succ d =>
              cases levelled
              rfl
      | square | cases =>
          cases levelled
          rfl
  | lexeme | connective =>
      cases levelled
      rfl

theorem level_plain {t : Token} (plain : t.isParenthesis = false) (d : Nat) : t.level d = some d := by
  cases t with
  | opening b | closing b =>
      cases b with
      | round => cases plain
      | square | cases => rfl
  | lexeme | connective => rfl

end Token

namespace Lexer

def levelBehind (d : Nat) (ts : List Token) : Option Nat :=
  ts.foldlM Token.level d

def Plain (ts : List Token) : Prop :=
  ∀ t ∈ ts, t.isParenthesis = false

-- Every parenthesis outside quotes and comments has its partner.
def Paired (text : List Char) : Prop :=
  levelBehind 0 (scan .between text).2 = some 0

instance (text : List Char) : Decidable (Paired text) :=
  inferInstanceAs (Decidable (_ = _))

theorem level_append (d : Nat) (ts us : List Token) :
    levelBehind d (ts ++ us) = (levelBehind d ts).bind fun e => levelBehind e us :=
  List.foldlM_append

theorem level_behind_raised {d e : Nat} {ts : List Token} (levelled : levelBehind d ts = some e) :
    levelBehind (d + 1) ts = some (e + 1) := by
  induction ts generalizing d with
  | nil =>
      cases levelled
      rfl
  | cons t ts ih =>
      obtain ⟨f, first, rest⟩ := Option.bind_eq_some_iff.mp levelled
      rw [levelBehind, List.foldlM_cons, Token.level_raised first]
      exact ih rest

theorem level_behind_plain {ts : List Token} (plain : Plain ts) (d : Nat) : levelBehind d ts = some d := by
  induction ts with
  | nil => rfl
  | cons t ts ih =>
      rw [levelBehind, List.foldlM_cons, Token.level_plain (plain t List.mem_cons_self)]
      exact ih fun u member => plain u (List.mem_cons_of_mem t member)

theorem plain_nil : Plain [] :=
  nofun

theorem plain_single {t : Token} (plain : t.isParenthesis = false) : Plain [t] := by
  intro u member
  rwa [List.mem_singleton.mp member]

theorem plain_append {ts us : List Token} (left : Plain ts) (right : Plain us) : Plain (ts ++ us) :=
  List.forall_mem_append.mpr ⟨left, right⟩

theorem word_plain (word : List Char) : (wordToken word).isParenthesis = false := by
  unfold wordToken
  split <;> rfl

theorem operator_plain (seen : List Char) : Plain (operatorTokens seen) := by
  unfold operatorTokens
  split
  · exact plain_nil
  · exact plain_single rfl

theorem finish_plain {m : Mode} {last : List Token} (finished : finish m = some last) : Plain last := by
  cases m with
  | between =>
      cases finished
      exact plain_nil
  | word seen =>
      cases finished
      exact plain_single (word_plain seen)
  | operator | quoteEnd | tag =>
      cases finished
      exact plain_single rfl
  | quoted | backslash | dollarQuoted | lineComment | blockComment => cases finished

theorem go_on_plain {m : Mode} {c : Char} {next : Mode × List Token} (goes : goOn m c = some next) : Plain next.2 := by
  revert goes
  fun_cases goOn m c with
  | case1 | case4 | case8 | case14 | case17 => nofun
  | case5 | case6 =>
      rintro ⟨⟩
      exact operator_plain _
  | case18 =>
      rintro ⟨⟩
      exact plain_single rfl
  | _ =>
      rintro ⟨⟩
      exact plain_nil

theorem start_plain {c : Char} (other : c ≠ '(' ∧ c ≠ ')') : Plain (start c).2 := by
  fun_cases start c with
  | case1 => exact absurd rfl other.1
  | case2 => exact absurd rfl other.2
  | case3 | case4 => exact plain_single rfl
  | case5 | case6 | case7 => exact plain_nil
  | case8 =>
      rw [if_pos ‹isBlank c›]
      exact plain_nil
  | case9 =>
      rw [if_neg ‹¬ isBlank c›, if_pos ‹isWordChar c›]
      exact plain_nil
  | case10 =>
      rw [if_neg ‹¬ isBlank c›, if_neg ‹¬ isWordChar c›]
      exact plain_nil

theorem step_plain (m : Mode) {c : Char} (other : c ≠ '(' ∧ c ≠ ')') : Plain (step m c).2 := by
  unfold step
  cases goes : goOn m c with
  | some next => exact go_on_plain goes
  | none =>
      refine plain_append ?_ (start_plain other)
      cases finished : finish m with
      | none => exact plain_nil
      | some last => exact finish_plain finished

theorem scan_plain (m : Mode) {text : List Char} (other : ∀ c ∈ text, c ≠ '(' ∧ c ≠ ')') :
    Plain (scan m text).2 := by
  induction text generalizing m with
  | nil => exact plain_nil
  | cons c text ih =>
      rw [List.forall_mem_cons] at other
      exact plain_append (step_plain m other.1) (ih _ other.2)

-- What holds no parenthesis may stand behind a text or not.
theorem paired_behind {text tail : List Char} (other : ∀ c ∈ tail, c ≠ '(' ∧ c ≠ ')') :
    Paired (text ++ tail) ↔ Paired text := by
  rw [Paired, scan_append, level_append]
  cases levelled : levelBehind 0 (scan .between text).2 with
  | none => simp [Paired, levelled]
  | some d =>
      rw [Option.bind_some, level_behind_plain (scan_plain _ other), Paired, levelled]

theorem tokens_none_iff (text : List Char) : tokens text = none ↔ finish (scan .between text).1 = none := by
  rw [tokens, Option.map_eq_none_iff]

-- Something open takes every character in.
theorem open_goes_on {m : Mode} (unfinished : finish m = none) (c : Char) : ∃ next, goOn m c = some next := by
  fun_cases goOn m c with
  | case1 | case4 | case8 | case14 | case17 => cases unfinished
  | _ => exact ⟨_, rfl⟩

theorem closing_level {m : Mode} (d : Nat) :
    levelBehind (d + 1) (step m ')').2 = some (if (finish m).isSome then d else d + 1) := by
  cases finished : finish m with
  | none =>
      obtain ⟨next, goes⟩ := open_goes_on finished ')'
      rw [step, goes]
      exact level_behind_plain (go_on_plain goes) _
  | some last =>
      rw [step_parting finished (.inr (.inl rfl)), level_append, level_behind_plain (finish_plain finished)]
      rfl

-- The front opens the one parenthesis that the closing one behind the text is meant for.
theorem enclosed_paired {front text : List Char} {ts : List Token} (fronted : scan .between front = (.between, ts))
    (opened : levelBehind 0 ts = some 1) (paired : Paired text) :
    Paired (front ++ text ++ [')']) ↔ tokens text ≠ none := by
  have inside : levelBehind 1 (scan .between text).2 = some 1 := level_behind_raised paired
  have closing (m : Mode) : scan m [')'] = ((step m ')').1, (step m ')').2 ++ []) := rfl
  rw [Paired, List.append_assoc, scan_append, fronted, scan_append, level_append, opened, Option.bind_some,
    level_append, inside, Option.bind_some, closing, List.append_nil, closing_level, Ne, tokens_none_iff]
  cases finish (scan .between text).1 <;> simp

namespace Mode

-- A dollar quote is closed by a dollar sign at the latest.
def Tagged : Mode → Prop
  | .dollarQuoted mark _ => mark.getLast? = some '$'
  | _ => True

-- Something is open that neither a blank nor a semicolon closes.
def Lasting : Mode → Prop
  | .quoted _ _ | .backslash _ | .blockComment _ _ => True
  | .dollarQuoted mark _ => mark.getLast? = some '$'
  | _ => False

end Mode

theorem start_tagged (c : Char) : (start c).1.Tagged := by
  fun_cases start c with
  | case8 =>
      rw [if_pos ‹isBlank c›]
      trivial
  | case9 =>
      rw [if_neg ‹¬ isBlank c›, if_pos ‹isWordChar c›]
      trivial
  | case10 =>
      rw [if_neg ‹¬ isBlank c›, if_neg ‹¬ isWordChar c›]
      trivial
  | _ => trivial

theorem go_on_tagged {m : Mode} {c : Char} {next : Mode × List Token} (tagged : m.Tagged) (goes : goOn m c = some next) :
    next.1.Tagged := by
  revert goes
  fun_cases goOn m c with
  | case1 | case4 | case8 | case14 | case17 => nofun
  | case15 =>
      rintro ⟨⟩
      exact List.getLast?_concat
  | case19 =>
      rintro ⟨⟩
      exact tagged
  | case20 =>
      rintro ⟨⟩
      dsimp only
      split <;> trivial
  | _ =>
      rintro ⟨⟩
      trivial

theorem scan_tagged {m : Mode} (tagged : m.Tagged) (text : List Char) : (scan m text).1.Tagged := by
  induction text generalizing m with
  | nil => exact tagged
  | cons c text ih =>
      refine ih ?_
      unfold step
      cases goes : goOn m c with
      | some next => exact go_on_tagged tagged goes
      | none => exact start_tagged c

theorem open_cases {m : Mode} (tagged : m.Tagged) (unfinished : finish m = none) : m = .lineComment ∨ m.Lasting := by
  cases m with
  | between | word | operator | quoteEnd | tag => cases unfinished
  | lineComment => exact .inl rfl
  | quoted | backslash | blockComment => exact .inr trivial
  | dollarQuoted => exact .inr tagged

theorem lasting_open {m : Mode} (lasting : m.Lasting) : finish m = none := by
  cases m with
  | between | word | operator | quoteEnd | tag | lineComment => cases lasting
  | quoted | backslash | blockComment | dollarQuoted => rfl

theorem go_on_lasting {m : Mode} {c : Char} (trailing : Text.isTrailing c) (lasting : m.Lasting) :
    ∃ next, goOn m c = some next ∧ next.1.Lasting := by
  cases m with
  | between | word | operator | quoteEnd | tag | lineComment => cases lasting
  | quoted q seen =>
      have inside : c ≠ q.mark := by
        cases q <;> exact Text.trailing_ne trailing rfl
      have unescaped : c ≠ '\\' := Text.trailing_ne trailing rfl
      exact ⟨(.quoted q (seen ++ [c]), []), by simp only [goOn, inside, unescaped, false_and, if_false], trivial⟩
  | backslash seen => exact ⟨_, rfl, trivial⟩
  | blockComment depth last =>
      have noSlash : c ≠ '/' := Text.trailing_ne trailing rfl
      have noStar : c ≠ '*' := Text.trailing_ne trailing rfl
      exact ⟨(.blockComment depth c, []), by simp only [goOn, noSlash, noStar, and_false, if_false], trivial⟩
  | dollarQuoted mark seen =>
      have inside : ¬ mark.isSuffixOf (seen ++ [c]) = true := by
        rw [List.isSuffixOf_iff_suffix]
        intro suffix
        obtain ⟨before, split⟩ := suffix
        have last := congrArg List.getLast? split
        rw [List.getLast?_append, lasting, List.getLast?_concat] at last
        exact Text.trailing_ne trailing rfl (Option.some.inj last).symm
      exact ⟨_, if_neg inside, lasting⟩

theorem scan_lasting {m : Mode} (lasting : m.Lasting) {tail : List Char} (trailing : ∀ c ∈ tail, Text.isTrailing c) :
    (scan m tail).1.Lasting := by
  induction tail generalizing m with
  | nil => exact lasting
  | cons c tail ih =>
      rw [List.forall_mem_cons] at trailing
      obtain ⟨next, goes, still⟩ := go_on_lasting trailing.1 lasting
      refine ih ?_ trailing.2
      rw [step, goes]
      exact still

theorem open_behind_trailing {text tail : List Char} (trailing : ∀ c ∈ tail, Text.isTrailing c)
    (closed : tokens (text ++ tail) ≠ none) : tokens text = none ↔ (scan .between text).1 = .lineComment := by
  rw [tokens_none_iff]
  constructor
  · intro unfinished
    refine (open_cases (scan_tagged (m := .between) trivial text) unfinished).resolve_right fun lasting => closed ?_
    rw [tokens_none_iff, scan_append]
    exact lasting_open (scan_lasting lasting trailing)
  · intro line
    rw [line]
    rfl

end Lexer

end QueryBuilder

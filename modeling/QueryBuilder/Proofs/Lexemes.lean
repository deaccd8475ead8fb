import QueryBuilder.Condition

/-!
The lexemes of SQL text, told apart as far as it takes to see the connectives and the brackets of a
condition: inside quotes, names and comments there are none.

A text has lexemes only if nothing in it is left open, a comment to the end of its line included,
so that what is written behind the text is no part of it.
-/

set_option autoImplicit false

namespace QueryBuilder

-- `CASE` and `END` stand around what is between them like brackets.
inductive Bracket where
  | round
  | square
  | cases
deriving DecidableEq

inductive Token where
  | lexeme (chars : List Char)
  | connective (k : Combinator)
  | opening (b : Bracket)
  | closing (b : Bracket)
deriving DecidableEq

inductive Quote where
  | text
  | escaped
  | name
deriving DecidableEq

def Quote.mark : Quote → Char
  | .text | .escaped => '\''
  | .name => '"'

namespace Lexer

def isBlank (c : Char) : Bool :=
  c = ' ' || (9 ≤ c.toNat && c.toNat ≤ 13)

def isTagChar (c : Char) : Bool :=
  c.isAlphanum || c = '_' || 128 ≤ c.toNat

-- A dot keeps a column of any name with its table.
def isWordChar (c : Char) : Bool :=
  isTagChar c || c = '$' || c = '.'

def isOperatorChar (c : Char) : Bool :=
  !isBlank c && !isWordChar c && !"()[]'\"".toList.contains c

def wordToken (word : List Char) : Token :=
  match word.map Char.toLower with
  | ['a', 'n', 'd'] => .connective .and
  | ['o', 'r'] => .connective .or
  | ['c', 'a', 's', 'e'] => .opening .cases
  | ['e', 'n', 'd'] => .closing .cases
  | _ => .lexeme word

-- Where the reader stands, with what it has seen of the lexeme it is in.
inductive Mode where
  | between
  | word (seen : List Char)
  | operator (seen : List Char)
  | quoted (q : Quote) (seen : List Char)
  | backslash (seen : List Char)
  | quoteEnd (q : Quote) (seen : List Char)
  | tag (seen : List Char)
  | dollarQuoted (tag : List Char) (seen : List Char)
  | lineComment
  | blockComment (depth : Nat) (last : Char)

def start (c : Char) : Mode × List Token :=
  match c with
  | '(' => (.between, [.opening .round])
  | ')' => (.between, [.closing .round])
  | '[' => (.between, [.opening .square])
  | ']' => (.between, [.closing .square])
  | '\'' => (.quoted .text [c], [])
  | '"' => (.quoted .name [c], [])
  | '$' => (.tag [c], [])
  | _ => if isBlank c then (.between, []) else if isWordChar c then (.word [c], []) else (.operator [c], [])

def operatorTokens (seen : List Char) : List Token :=
  if seen.isEmpty then [] else [.lexeme seen]

-- A step inside a lexeme or a comment; none where the character does not belong to it.
def goOn : Mode → Char → Option (Mode × List Token)
  | .between, _ => none
  | .word seen, c =>
      if isWordChar c then some (.word (seen ++ [c]), [])
      else if c = '\'' ∧ (seen = ['e'] ∨ seen = ['E']) then some (.quoted .escaped (seen ++ [c]), [])
      else none
  | .operator seen, c =>
      if c = '-' ∧ seen.getLast? = some '-' then some (.lineComment, operatorTokens seen.dropLast)
      else if c = '*' ∧ seen.getLast? = some '/' then some (.blockComment 0 ' ', operatorTokens seen.dropLast)
      else if isOperatorChar c then some (.operator (seen ++ [c]), [])
      else none
  | .quoted q seen, c =>
      if c = q.mark then some (.quoteEnd q (seen ++ [c]), [])
      else if c = '\\' ∧ q = .escaped then some (.backslash (seen ++ [c]), [])
      else some (.quoted q (seen ++ [c]), [])
  | .backslash seen, c => some (.quoted .escaped (seen ++ [c]), [])
  | .quoteEnd q seen, c => if c = q.mark then some (.quoted q (seen ++ [c]), []) else none
  | .tag seen, c =>
      if c = '$' then some (.dollarQuoted (seen ++ [c]) [], [])
      else if isTagChar c then some (.tag (seen ++ [c]), [])
      else none
  | .dollarQuoted tag seen, c =>
      if tag.isSuffixOf (seen ++ [c]) then some (.between, [.lexeme (tag ++ seen ++ [c])])
      else some (.dollarQuoted tag (seen ++ [c]), [])
  | .lineComment, c => some (if c = '\n' ∨ c = '\r' then .between else .lineComment, [])
  | .blockComment depth last, c =>
      if last = '*' ∧ c = '/' then
        match depth with
        | 0 => some (.between, [])
        | outer + 1 => some (.blockComment outer ' ', [])
      else if last = '/' ∧ c = '*' then some (.blockComment (depth + 1) ' ', [])
      else some (.blockComment depth c, [])

-- The lexeme that ends here; none where something is open.
def finish : Mode → Option (List Token)
  | .between => some []
  | .word seen => some [wordToken seen]
  | .operator seen | .quoteEnd _ seen | .tag seen => some [.lexeme seen]
  | .quoted _ _ | .backslash _ | .dollarQuoted _ _ | .lineComment | .blockComment _ _ => none

def step (m : Mode) (c : Char) : Mode × List Token :=
  match goOn m c with
  | some next => next
  | none => ((start c).1, (finish m).getD [] ++ (start c).2)

def scan : Mode → List Char → Mode × List Token
  | m, [] => (m, [])
  | m, c :: rest => ((scan (step m c).1 rest).1, (step m c).2 ++ (scan (step m c).1 rest).2)

def tokens (text : List Char) : Option (List Token) :=
  (finish (scan .between text).1).map fun last => (scan .between text).2 ++ last

theorem scan_append (m : Mode) (a b : List Char) :
    scan m (a ++ b) = ((scan (scan m a).1 b).1, (scan m a).2 ++ (scan (scan m a).1 b).2) := by
  induction a generalizing m with
  | nil => rfl
  | cons c rest ih => simp only [List.cons_append, scan, ih, List.append_assoc]

-- These end any lexeme, wherever it may end, and are no part of it.
def Parts (c : Char) : Prop :=
  c = '(' ∨ c = ')' ∨ c = ' '

theorem parting_goes_on {m : Mode} {last : List Token} (finished : finish m = some last) {c : Char} (parts : Parts c) :
    goOn m c = none := by
  have plain : isWordChar c = false ∧ isTagChar c = false ∧ isOperatorChar c = false := by
    rcases parts with rfl | rfl | rfl <;> decide
  have other : c ≠ '\'' ∧ c ≠ '"' ∧ c ≠ '-' ∧ c ≠ '*' ∧ c ≠ '$' := by
    rcases parts with rfl | rfl | rfl <;> decide
  obtain ⟨noWord, noTag, noOperator⟩ := plain
  obtain ⟨noQuote, noName, noDash, noStar, noDollar⟩ := other
  cases m with
  | between => rfl
  | word seen => simp [goOn, noWord, noQuote]
  | operator seen => simp [goOn, noOperator, noDash, noStar]
  | quoteEnd q seen => cases q <;> simp [goOn, Quote.mark, noQuote, noName]
  | tag seen => simp [goOn, noTag, noDollar]
  | _ => cases finished

theorem step_parting {m : Mode} {last : List Token} (finished : finish m = some last) {c : Char} (parts : Parts c) :
    step m c = ((start c).1, last ++ (start c).2) := by
  rw [step, parting_goes_on finished parts, finished]
  rfl

theorem tokens_parted {a b : List Char} {ts : List Token} (read : tokens a = some ts) {c : Char} (parts : Parts c) :
    tokens (a ++ c :: b) = (tokens (c :: b)).map fun us => ts ++ us := by
  obtain ⟨last, finished, rfl⟩ := Option.map_eq_some_iff.mp read
  have anew : step .between c = start c := step_parting (m := .between) rfl parts
  rw [tokens, tokens, scan_append, scan, scan, step_parting finished parts, anew, Option.map_map]
  simp only [Function.comp_def, List.append_assoc]

theorem tokens_blank (b : List Char) : tokens (' ' :: b) = tokens b := by
  simp [tokens, scan, step, goOn, finish, start, isBlank]

theorem tokens_opening (b : List Char) : tokens ('(' :: b) = (tokens b).map fun us => .opening .round :: us := by
  simp [tokens, scan, step, goOn, finish, start, Function.comp_def]

theorem tokens_enclosed {a : List Char} {ts : List Token} (read : tokens a = some ts) :
    tokens ('(' :: (a ++ [')'])) = some (.opening .round :: (ts ++ [.closing .round])) := by
  rw [tokens_opening, tokens_parted read (.inr (.inl rfl))]
  rfl

theorem tokens_keyword (k : Combinator) : tokens k.keyword.toList = some [.connective k] := by
  cases k <;> decide

theorem tokens_linked {a b : List Char} {ts us : List Token} (left : tokens a = some ts) (right : tokens b = some us)
    (k : Combinator) : tokens (a ++ ' ' :: (k.keyword.toList ++ ' ' :: b)) = some (ts ++ .connective k :: us) := by
  rw [tokens_parted left (.inr (.inr rfl)), tokens_blank, tokens_parted (tokens_keyword k) (.inr (.inr rfl)),
    tokens_blank, right]
  rfl

end Lexer

end QueryBuilder

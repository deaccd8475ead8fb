import QueryBuilder.Text.Blank

/-!
What may stand before a statement: blanks, opening parentheses and comments.

A line comment begins with two hyphens and ends with its line; a block comment ends with the first
star and slash that follow its opening slash, so that the star of the opening may belong to both.
-/

set_option autoImplicit false

namespace QueryBuilder.Text

-- Where a walk over the noise stands: between two pieces of it, inside a comment or at the slash
-- that ends one.
inductive NoisePlace where
  | between
  | line
  | block
  | closing
deriving DecidableEq, Repr

-- Walks over noise and gives the text from the first character that is none. The star that opens a
-- block comment is read inside it.
def dropNoiseFrom : NoisePlace → List Char → List Char
  | _, [] => []
  | .between, c :: rest =>
      if c = '-' ∧ rest.head? = some '-' then dropNoiseFrom .line rest
      else if c = '/' ∧ rest.head? = some '*' then dropNoiseFrom .block rest
      else if isBlank c || c == '(' then dropNoiseFrom .between rest
      else c :: rest
  | .line, c :: rest => dropNoiseFrom (if c = '\n' then .between else .line) rest
  | .block, c :: rest => dropNoiseFrom (if c = '*' ∧ rest.head? = some '/' then .closing else .block) rest
  | .closing, _ :: rest => dropNoiseFrom .between rest

-- The text of a statement without the noise before it. A comment that does not end takes all.
def dropNoise (text : List Char) : List Char :=
  dropNoiseFrom .between text

-- Whether a statement, the noise before it aside, begins with a word in letters of either case.
def opensWith (word : String) (text : List Char) : Bool :=
  startsWithWord word.toList (dropNoise text)

end QueryBuilder.Text

import QueryBuilder.Text.Noise

/-!
The kind of a statement, told from its text.

The first word after the noise decides. After `WITH` it is the word behind the last parenthesis that
closes a common table expression.
-/

set_option autoImplicit false

namespace QueryBuilder

inductive StatementKind where
  | select
  | insert
  | update
  | delete
  | truncate
  | other
deriving DecidableEq, Repr

namespace StatementKind

def keyword : StatementKind → String
  | .select => "SELECT"
  | .insert => "INSERT"
  | .update => "UPDATE"
  | .delete => "DELETE"
  | .truncate => "TRUNCATE"
  | .other => "OTHER"

def named : List StatementKind :=
  [.select, .insert, .update, .delete, .truncate]

def ofWord? (text : List Char) : Option StatementKind :=
  named.find? fun kind => Text.startsWithWord kind.keyword.toList text

-- The text behind the last parenthesis that closes at depth zero, or `last` when there is none.
-- Parentheses between single quotes do not count; a quote written twice is no end of a literal.
def behindTables : (quoted : Bool) → (depth : Int) → (last : List Char) → List Char → List Char
  | _, _, last, [] => last
  | true, depth, last, '\'' :: '\'' :: rest => behindTables true depth last rest
  | quoted, depth, last, '\'' :: rest => behindTables (!quoted) depth last rest
  | true, depth, last, _ :: rest => behindTables true depth last rest
  | false, depth, last, '(' :: rest => behindTables false (depth + 1) last rest
  | false, depth, last, ')' :: rest =>
      behindTables false (depth - 1) (if depth = 1 then rest else last) rest
  | false, depth, last, _ :: rest => behindTables false depth last rest

-- The kind of a statement that begins with `WITH`; it selects unless it is told to write.
def ofTables (text : List Char) : StatementKind :=
  match ofWord? (Text.trimStart (behindTables false 0 text text)) with
  | none | some .truncate => .select
  | some kind => kind

def ofSql (sql : String) : StatementKind :=
  let text := Text.dropNoise sql.toList
  if Text.startsWithWord "WITH".toList text then ofTables text else (ofWord? text).getD .other

end StatementKind

end QueryBuilder

import QueryBuilder.Connection.Setting
import QueryBuilder.Text.Blank

/-!
Connection settings written as `name = value` pairs with blanks between them.

A value stands between single quotes or reaches to the next blank; in both, a backslash takes the
meaning from the character behind it. The list ends where no name follows.
-/

set_option autoImplicit false

namespace QueryBuilder.Keywords

def isNameChar (c : Char) : Bool :=
  !Text.isBlank c && c != '='

def bareValue : List Char → List Char × List Char
  | [] => ([], [])
  | ['\\'] => ([], [])
  | '\\' :: c :: rest =>
      let (value, rest) := bareValue rest
      (c :: value, rest)
  | c :: rest =>
      if Text.isBlank c then ([], c :: rest)
      else
        let (value, rest) := bareValue rest
        (c :: value, rest)

-- A value up to its closing quote, the opening one already read, and the text behind it.
def quotedValue? : List Char → Option (List Char × List Char)
  | [] => none
  | ['\\'] => none
  | '\'' :: rest => some ([], rest)
  | '\\' :: c :: rest => (quotedValue? rest).map fun (value, rest) => (c :: value, rest)
  | c :: rest => (quotedValue? rest).map fun (value, rest) => (c :: value, rest)

-- A value and the text behind it; only quotes can hold an empty one.
def value? : List Char → Option (List Char × List Char)
  | '\'' :: rest => quotedValue? rest
  | text =>
      let (value, rest) := bareValue text
      if value.isEmpty then none else some (value, rest)

-- The settings of a text; `fuel` bounds their number.
def settings? : (fuel : Nat) → List Char → Option (List Setting)
  | 0, _ => none
  | fuel + 1, text =>
      let text := Text.trimStart text
      let name := text.takeWhile isNameChar
      if name.isEmpty then some []
      else
        match Text.trimStart (text.dropWhile isNameChar) with
        | '=' :: rest => do
            let (value, rest) ← value? (Text.trimStart rest)
            let setting ← Setting.ofText? (String.ofList name) (String.ofList value)
            let settings ← settings? fuel rest
            return setting :: settings
        | _ => none

def parse? (text : List Char) : Option (List Setting) :=
  settings? (text.length + 1) text

end QueryBuilder.Keywords

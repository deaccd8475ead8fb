import QueryBuilder.Text.Hex
import QueryBuilder.Text.Split

/-!
Universally unique identifiers: sixteen bytes, written as lower-case hexadecimal digits in groups
of eight, four, four, four and twelve. They are also read without hyphens, between braces, and
behind the name of their name space.
-/

set_option autoImplicit false

namespace QueryBuilder

structure Uuid where
  bytes : List UInt8
deriving DecidableEq, Repr

namespace Uuid

-- What stands between braces or behind the name space, or all of the text.
def body (text : List Char) : List Char :=
  match Text.dropFront? "urn:uuid:".toList text with
  | some rest => rest
  | none =>
      match text with
      | '\x7b' :: rest => if rest.getLast? == some '\x7d' then rest.dropLast else text
      | _ => text

-- Reads thirty-two hexadecimal digits of either case; hyphens between them are passed over.
def parse? (text : String) : Option Uuid := do
  let bytes ← Text.bytesOfHexChars? ((body text.toList).filter (· != '-'))
  if bytes.length = 16 then some ⟨bytes⟩ else none

def write (u : Uuid) : String :=
  let hex := fun (start count : Nat) => Text.hexOfBytes ((u.bytes.drop start).take count)
  hex 0 4 ++ "-" ++ hex 4 2 ++ "-" ++ hex 6 2 ++ "-" ++ hex 8 2 ++ "-" ++ hex 10 6

end Uuid

end QueryBuilder

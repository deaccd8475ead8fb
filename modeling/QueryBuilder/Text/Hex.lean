/-!
Bytes written as two lower-case hexadecimal digits each.
-/

set_option autoImplicit false

namespace QueryBuilder.Text

def hexDigit (n : Nat) : Char :=
  if n < 10 then Char.ofNat (48 + n) else Char.ofNat (87 + n)

def hexValue? (c : Char) : Option Nat :=
  if '0' ≤ c ∧ c ≤ '9' then some (c.toNat - 48)
  else if 'a' ≤ c ∧ c ≤ 'f' then some (c.toNat - 87)
  else if 'A' ≤ c ∧ c ≤ 'F' then some (c.toNat - 55)
  else none

def hexOfBytes (bytes : List UInt8) : String :=
  String.ofList (bytes.flatMap fun b => [hexDigit (b.toNat / 16), hexDigit (b.toNat % 16)])

def bytesOfHexChars? : List Char → Option (List UInt8)
  | [] => some []
  | [_] => none
  | hi :: lo :: rest => do
      let a ← hexValue? hi
      let b ← hexValue? lo
      return UInt8.ofNat (16 * a + b) :: (← bytesOfHexChars? rest)

def bytesOfHex? (text : String) : Option (List UInt8) :=
  bytesOfHexChars? text.toList

-- The number that a row of hexadecimal digits writes, most significant digit first.
def natOfHex? (text : String) : Option Nat :=
  text.toList.foldl (fun acc c => do return 16 * (← acc) + (← hexValue? c)) (some 0)

end QueryBuilder.Text

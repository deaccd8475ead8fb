import QueryBuilder.Text.Hex
import QueryBuilder.Text.Split

/-!
The written forms of internet addresses.

An address of version 4 is four numbers up to 255 in decimal, without needless zeros. One of version
6 is eight groups of one to four hexadecimal digits; two colons in a row stand for one or more groups
of zeros, once, and the last two groups may be written as an address of version 4.
-/

set_option autoImplicit false

namespace QueryBuilder.Address

def isOctet (text : List Char) : Bool :=
  !text.isEmpty && text.length ≤ 3 && text.all Char.isDigit && (text.length == 1 || text.head? != some '0')
    && text.foldl (fun n c => 10 * n + (c.toNat - 48)) 0 ≤ 255

def isVersion4 (text : List Char) : Bool :=
  let octets := Text.splitOn '.' text
  octets.length == 4 && octets.all isOctet

def isGroup (text : List Char) : Bool :=
  !text.isEmpty && text.length ≤ 4 && text.all fun c => (Text.hexValue? c).isSome

-- How many groups the pieces between single colons stand for, if they are groups.
def groupCount? : List (List Char) → Option Nat
  | [] => some 0
  | [last] => if isGroup last then some 1 else if isVersion4 last then some 2 else none
  | piece :: rest => if isGroup piece then (groupCount? rest).map (· + 1) else none

-- The groups of a stretch without double colon, which may be empty.
def stretch? (text : List Char) : Option Nat :=
  if text.isEmpty then some 0 else groupCount? (Text.splitOn ':' text)

-- What stands before and behind the first double colon.
def splitDouble? : List Char → Option (List Char × List Char)
  | ':' :: ':' :: rest => some ([], rest)
  | c :: rest => (splitDouble? rest).map fun (head, tail) => (c :: head, tail)
  | [] => none

def isVersion6 (text : List Char) : Bool :=
  match splitDouble? text with
  | none => stretch? text == some 8
  | some (head, tail) =>
      match stretch? head, stretch? tail with
      | some m, some n => m + n ≤ 7 && !head.contains '.'
      | _, _ => false

def isAddress (text : List Char) : Bool :=
  isVersion4 text || isVersion6 text

end QueryBuilder.Address

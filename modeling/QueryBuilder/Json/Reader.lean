import QueryBuilder.Json
import QueryBuilder.Text.Hex

/-!
Reading JSON text. A number without point and exponent that fits 64 bits is an integer; every other
number, and the negative zero, is a floating-point number. It is read by scaling: as many of its
digits as fit 64 bits, and the power of ten that makes up for the point and for the digits left out.
Of two fields of one name the later wins.
-/

set_option autoImplicit false

namespace QueryBuilder.Json

def skipBlank : List Char → List Char :=
  List.dropWhile fun c => c == ' ' || c == '\n' || c == '\t' || c == '\r'

def isDigit (c : Char) : Bool :=
  '0' ≤ c && c ≤ '9'

def natOfDigits (digits : List Char) : Nat :=
  digits.foldl (fun n c => 10 * n + (c.toNat - 48)) 0

def hexUnit? : List Char → Option (Nat × List Char)
  | a :: b :: c :: d :: rest => do
      let w ← Text.hexValue? a
      let x ← Text.hexValue? b
      let y ← Text.hexValue? c
      let z ← Text.hexValue? d
      return (4096 * w + 256 * x + 16 * y + z, rest)
  | _ => none

-- The character written by an escape, the backslash already read.
def readEscape? : List Char → Option (Char × List Char)
  | 'b' :: rest => some (Char.ofNat 8, rest)
  | 't' :: rest => some (Char.ofNat 9, rest)
  | 'n' :: rest => some (Char.ofNat 10, rest)
  | 'f' :: rest => some (Char.ofNat 12, rest)
  | 'r' :: rest => some (Char.ofNat 13, rest)
  | 'u' :: rest => do
      let (unit, rest) ← hexUnit? rest
      if 0xD800 ≤ unit ∧ unit < 0xDC00 then
        match rest with
        | '\\' :: 'u' :: rest =>
            let (low, rest) ← hexUnit? rest
            return (Char.ofNat (0x10000 + (unit - 0xD800) * 1024 + (low - 0xDC00)), rest)
        | _ => none
      else return (Char.ofNat unit, rest)
  | c :: rest => if c = '"' ∨ c = '\\' ∨ c = '/' then some (c, rest) else none
  | [] => none

-- The rest of a string literal, its opening quote already read; `fuel` bounds its length.
def readText? : (fuel : Nat) → (done : List Char) → List Char → Option (String × List Char)
  | 0, _, _ => none
  | _, _, [] => none
  | _ + 1, done, '"' :: rest => some (String.ofList done.reverse, rest)
  | fuel + 1, done, '\\' :: rest => do
      let (c, rest) ← readEscape? rest
      readText? fuel (c :: done) rest
  | fuel + 1, done, c :: rest => readText? fuel (c :: done) rest

def readExponent? : List Char → Option (Int × List Char)
  | e :: rest =>
      if e = 'e' ∨ e = 'E' then
        let (negative, rest) := match rest with
          | '-' :: r => (true, r)
          | '+' :: r => (false, r)
          | r => (false, r)
        let digits := rest.takeWhile isDigit
        if digits.isEmpty then none
        else
          let n : Int := natOfDigits digits
          some (if negative then -n else n, rest.dropWhile isDigit)
      else none
  | [] => none

-- Takes digits as long as the number they make fits 64 bits, and tells how many were taken.
def takeDigits : (n : Nat) → List Char → Nat × Nat
  | n, [] => (n, 0)
  | n, c :: cs =>
      let next := 10 * n + (c.toNat - 48)
      if Nat.pow 2 64 ≤ next then (n, 0)
      else
        let (n, taken) := takeDigits next cs
        (n, taken + 1)

def ofFinite? (x : Double) : Option Json :=
  if x.isFinite then some (.float x) else none

def readNumber? (input : List Char) : Option (Json × List Char) := do
  let (negative, rest) := match input with
    | '-' :: r => (true, r)
    | r => (false, r)
  let whole := rest.takeWhile isDigit
  let rest := rest.dropWhile isDigit
  let (places, rest) := match rest with
    | '.' :: r => (r.takeWhile isDigit, r.dropWhile isDigit)
    | r => ([], r)
  let (n, taken) := takeDigits 0 whole
  let (m, takenPlaces) := takeDigits n places
  let shift : Int := ((whole.length - taken : Nat) : Int) - takenPlaces
  if whole.isEmpty then none
  else
    match readExponent? rest with
    | some (e, rest) => return (← ofFinite? (.scaleDecimal negative m (shift + e)), rest)
    | none =>
        if !places.isEmpty || taken < whole.length then return (← ofFinite? (.scaleDecimal negative m shift), rest)
        else if !negative then return (.int n, rest)
        else if n = 0 ∨ Nat.pow 2 63 < n then return (.float (.scaleDecimal true n 0), rest)
        else return (.int (-(n : Int)), rest)

def dropWord? : (word input : List Char) → Option (List Char)
  | [], input => some input
  | w :: ws, c :: cs => if w = c then dropWord? ws cs else none
  | _ :: _, [] => none

mutual
def read? : (fuel : Nat) → List Char → Option (Json × List Char)
  | 0, _ => none
  | fuel + 1, input =>
      match skipBlank input with
      | '"' :: rest => (readText? rest.length.succ [] rest).map fun (s, rest) => (.text s, rest)
      | '[' :: rest =>
          match skipBlank rest with
          | ']' :: rest => some (.array [], rest)
          | rest => (readItems? fuel rest).map fun (items, rest) => (.array items, rest)
      | '\x7b' :: rest =>
          match skipBlank rest with
          | '\x7d' :: rest => some (.object [], rest)
          | rest => (readFields? fuel [] rest).map fun (fields, rest) => (.object fields, rest)
      | 't' :: rest => (dropWord? ['r', 'u', 'e'] rest).map fun rest => (.bool true, rest)
      | 'f' :: rest => (dropWord? ['a', 'l', 's', 'e'] rest).map fun rest => (.bool false, rest)
      | 'n' :: rest => (dropWord? ['u', 'l', 'l'] rest).map fun rest => (.null, rest)
      | rest => readNumber? rest

def readItems? : (fuel : Nat) → List Char → Option (List Json × List Char)
  | 0, _ => none
  | fuel + 1, input => do
      let (item, rest) ← read? fuel input
      match skipBlank rest with
      | ',' :: rest =>
          let (items, rest) ← readItems? fuel rest
          return (item :: items, rest)
      | ']' :: rest => return ([item], rest)
      | _ => none

def readFields? : (fuel : Nat) → (done : List (String × Json)) → List Char →
    Option (List (String × Json) × List Char)
  | 0, _, _ => none
  | fuel + 1, done, input =>
      match skipBlank input with
      | '"' :: rest => do
          let (name, rest) ← readText? rest.length.succ [] rest
          match skipBlank rest with
          | ':' :: rest =>
              let (value, rest) ← read? fuel rest
              match skipBlank rest with
              | ',' :: rest => readFields? fuel (putField name value done) rest
              | '\x7d' :: rest => return (putField name value done, rest)
              | _ => none
          | _ => none
      | _ => none
end

def parse? (input : String) : Option Json :=
  let chars := input.toList
  match read? (2 * chars.length + 2) chars with
  | some (j, rest) => if (skipBlank rest).isEmpty then some j else none
  | none => none

end QueryBuilder.Json

/-!
Blank characters, as Unicode's property White_Space lists them, and trimming by them.
-/

set_option autoImplicit false

namespace QueryBuilder.Text

def isBlank (c : Char) : Bool :=
  let n := c.toNat
  (9 ≤ n && n ≤ 13) || n == 0x20 || n == 0x85 || n == 0xA0 || n == 0x1680
    || (0x2000 ≤ n && n ≤ 0x200A) || n == 0x2028 || n == 0x2029 || n == 0x202F
    || n == 0x205F || n == 0x3000

def trimStart (text : List Char) : List Char :=
  text.dropWhile isBlank

def trimEnd (text : List Char) : List Char :=
  (text.reverse.dropWhile isBlank).reverse

def trim (text : List Char) : List Char :=
  trimEnd (trimStart text)

-- Letters compared without regard to ASCII case; every other character stands for itself.
def sameLetter (a b : Char) : Bool :=
  a.toLower == b.toLower

-- Whether `text` begins with `word`, without regard to ASCII case.
def startsWithWord : (word text : List Char) → Bool
  | [], _ => true
  | _ :: _, [] => false
  | w :: ws, c :: cs => sameLetter w c && startsWithWord ws cs

end QueryBuilder.Text

/-!
Cutting a text to a budget of UTF-8 bytes without cutting a character.
-/

set_option autoImplicit false

namespace QueryBuilder.Text

-- The longest run of whole characters from the front that fits the budget.
def clipChars : (budget : Nat) → List Char → List Char
  | _, [] => []
  | budget, c :: cs => if c.utf8Size ≤ budget then c :: clipChars (budget - c.utf8Size) cs else []

-- The longest prefix of at most `budget` bytes that ends between two characters.
def clip (text : String) (budget : Nat) : String :=
  String.ofList (clipChars budget text.toList)

end QueryBuilder.Text

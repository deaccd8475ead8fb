/-!
Cutting a text at separators.
-/

set_option autoImplicit false

namespace QueryBuilder.Text

-- The pieces of a text between separators; a text without one is a single piece.
def splitOn (sep : Char) : List Char → List (List Char)
  | [] => [[]]
  | c :: rest =>
      if c = sep then [] :: splitOn sep rest
      else
        match splitOn sep rest with
        | [] => [[c]]
        | piece :: pieces => (c :: piece) :: pieces

-- What stands before the first separator and what stands behind it, if there is one.
def splitFirst? (sep : Char) : List Char → Option (List Char × List Char)
  | [] => none
  | c :: rest =>
      if c = sep then some ([], rest)
      else (splitFirst? sep rest).map fun (head, tail) => (c :: head, tail)

-- A text cut in front of the first of some characters, or at its end.
def cutBefore (stop : List Char) (text : List Char) : List Char × List Char :=
  (text.takeWhile fun c => !stop.contains c, text.dropWhile fun c => !stop.contains c)

-- What stands behind a given front of a text.
def dropFront? : (front text : List Char) → Option (List Char)
  | [], text => some text
  | _ :: _, [] => none
  | f :: fs, c :: cs => if f = c then dropFront? fs cs else none

end QueryBuilder.Text

import QueryBuilder.Number.Double

/-!
JSON documents. Integers and floating-point numbers are kept apart, as their texts are; an object
is a list of fields, which the reader keeps sorted by name and free of repeats.
-/

set_option autoImplicit false

namespace QueryBuilder

inductive Json where
  | null
  | bool (b : Bool)
  | int (n : Int)
  | float (x : Double)
  | text (s : String)
  | array (items : List Json)
  | object (fields : List (String × Json))
deriving Inhabited

namespace Json

mutual
def beq : Json → Json → Bool
  | .null, .null => true
  | .bool a, .bool b => a == b
  | .int a, .int b => a == b
  | .float a, .float b => a.sameNumber b
  | .text a, .text b => a == b
  | .array a, .array b => beqItems a b
  | .object a, .object b => beqFields a b
  | _, _ => false

def beqItems : List Json → List Json → Bool
  | [], [] => true
  | a :: as, b :: bs => beq a b && beqItems as bs
  | _, _ => false

def beqFields : List (String × Json) → List (String × Json) → Bool
  | [], [] => true
  | (j, a) :: as, (k, b) :: bs => j == k && beq a b && beqFields as bs
  | _, _ => false
end

instance : BEq Json := ⟨beq⟩

-- The value of a field; `null` stands for an absent one.
def field (name : String) : Json → Json
  | .object fields => ((fields.find? fun f => f.1 == name).map (·.2)).getD .null
  | _ => .null

def isNull : Json → Bool
  | .null => true
  | _ => false

-- Puts a field into a list sorted by name, in place of one of the same name.
def putField (name : String) (value : Json) : List (String × Json) → List (String × Json)
  | [] => [(name, value)]
  | (k, v) :: rest =>
      if name = k then (k, value) :: rest
      else if name < k then (name, value) :: (k, v) :: rest
      else (k, v) :: putField name value rest

end Json

end QueryBuilder

import QueryBuilder.Connection.Keywords
import QueryBuilder.Connection.Url
import QueryBuilder.Error

/-!
Pools of connections. Making one reads the settings and connects to nothing.
-/

set_option autoImplicit false

namespace QueryBuilder

-- Reads connection settings, as a URL if the text begins like one and as pairs otherwise.
def connectionSettings? (text : String) : Option (List Setting) :=
  let chars := text.toList
  match Text.dropFront? "postgres://".toList chars <|> Text.dropFront? "postgresql://".toList chars with
  | some rest => Url.parse? rest
  | none => Keywords.parse? chars

structure Pool where
  settings : List Setting
  maxSize : Nat
deriving DecidableEq, Repr

namespace Pool

def standardSize : Nat := 16

def ofText (text : String) (maxSize : Nat) : Except Error Pool :=
  match connectionSettings? text with
  | some settings => .ok ⟨settings, maxSize⟩
  | none => .error (.connection "invalid database url: invalid connection string")

def closed : Error :=
  .pool "Pool has been closed"

end Pool

end QueryBuilder

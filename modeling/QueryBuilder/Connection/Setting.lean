import QueryBuilder.Connection.Address

/-!
Single settings of a connection: the names there are and the values each of them takes.
-/

set_option autoImplicit false

namespace QueryBuilder

-- A setting whose value was found to fit its name. Passwords and socket paths need not be text, so
-- values are bytes.
structure Setting where
  name : String
  value : List UInt8
deriving DecidableEq, Repr

namespace Setting

-- A decimal number with an optional sign, between bounds; `minus` allows it to be negative.
def isNumber (minus : Bool) (low high : Int) (text : List Char) : Bool :=
  let (negative, digits) := match text with
    | '-' :: rest => if minus then (true, rest) else (false, text)
    | '+' :: rest => (false, rest)
    | _ => (false, text)
  let n : Int := digits.foldl (fun n c => 10 * n + ((c.toNat : Int) - 48)) 0
  let n := if negative then -n else n
  !digits.isEmpty && digits.all Char.isDigit && low ≤ n && n ≤ high

def isSeconds : List Char → Bool :=
  isNumber true (-9223372036854775808) 9223372036854775807

-- The number of a socket; an empty one stands for the usual number.
def isSocketNumber (text : List Char) : Bool :=
  text.isEmpty || isNumber false 0 65535 text

-- Whether a value fits the setting of a name; a name that is unknown takes none.
def fits (name : String) (value : String) : Bool :=
  let text := value.toList
  match name with
  | "user" | "password" | "dbname" | "options" | "application_name" | "host" => true
  | "sslmode" => ["disable", "prefer", "require"].contains value
  | "sslnegotiation" => ["postgres", "direct"].contains value
  | "hostaddr" => (Text.splitOn ',' text).all Address.isAddress
  | "port" => (Text.splitOn ',' text).all isSocketNumber
  | "connect_timeout" | "tcp_user_timeout" | "keepalives_idle" | "keepalives_interval" => isSeconds text
  | "keepalives" => isNumber false 0 18446744073709551615 text
  | "keepalives_retries" => isNumber false 0 4294967295 text
  | "target_session_attrs" => ["any", "read-write", "read-only"].contains value
  | "channel_binding" => ["disable", "prefer", "require"].contains value
  | "load_balance_hosts" => ["disable", "random"].contains value
  | _ => false

def ofText? (name value : String) : Option Setting :=
  if fits name value then some ⟨name, value.toUTF8.toList⟩ else none

end Setting

end QueryBuilder

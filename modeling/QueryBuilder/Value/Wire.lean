import QueryBuilder.Json.Printer
import QueryBuilder.Value

/-!
The binary form in which parameters travel to the server.

Numbers are big-endian. A value fits only the types of its own kind; an integer also adapts to the
narrower integer types, where it must fit, and to the floating-point types. Arrays, fragments and
sub-queries are never bound: they have their place in the text. A driver value sees to its bytes itself.
-/

set_option autoImplicit false

namespace QueryBuilder

namespace Wire

def bigEndian : (width : Nat) → Nat → Bytes
  | 0, _ => []
  | width + 1, n => bigEndian width (n / 256) ++ [UInt8.ofNat n]

-- An integer in two's complement of `width` bytes.
def signed (width : Nat) (n : Int) : Bytes :=
  bigEndian width (n.emod (Nat.pow 256 width : Nat)).toNat

-- An integer in `width` bytes, if it lies between the bounds.
def checked (width : Nat) (low high n : Int) : Except BindFault (Option Bytes) :=
  if low ≤ n ∧ n ≤ high then .ok (some (signed width n)) else .error .outOfRange

def utf8 (s : String) : Bytes :=
  s.toUTF8.toList

-- The bytes, if the type is among those accepted.
def only (accepted : Bool) (bytes : Bytes) : Except BindFault (Option Bytes) :=
  if accepted then .ok (some bytes) else .error .wrongType

def isText (t : PgType) : Bool :=
  t == .text || t == .varchar || t == .bpchar || t == .name || t == .unknown

def bindInt (n : Int) : PgType → Except BindFault (Option Bytes)
  | .int2 => checked 2 (-32768) 32767 n
  | .int4 => checked 4 (-2147483648) 2147483647 n
  | .oid => checked 4 0 4294967295 n
  | .float4 => .ok (some (bigEndian 4 (Double.singleOfInt n)))
  | .float8 => .ok (some (bigEndian 8 (Double.ofInt n).bits.toNat))
  | .int8 => .ok (some (signed 8 n))
  | _ => .error .wrongType

def bindFloat (x : Double) : PgType → Except BindFault (Option Bytes)
  | .float4 => .ok (some (bigEndian 4 x.toSingle))
  | .float8 => .ok (some (bigEndian 8 x.bits.toNat))
  | _ => .error .wrongType

def bindJson (j : Json) : PgType → Except BindFault (Option Bytes)
  | .json => .ok (some (utf8 j.write))
  | .jsonb => .ok (some (1 :: utf8 j.write))
  | _ => .error .wrongType

end Wire

-- The bytes of a value bound to a type; none for null, which every type takes.
def Value.bindTo (t : PgType) : Value → Except BindFault (Option Wire.Bytes)
  | .null => .ok none
  | .bool b => Wire.only (t == .bool) [if b then 1 else 0]
  | .int n => Wire.bindInt n.toInt t
  | .float x => Wire.bindFloat x t
  | .text s => Wire.only (Wire.isText t) (Wire.utf8 s)
  | .bytes b => Wire.only (t == .bytea) b
  | .json j => Wire.bindJson j t
  | .uuid u => Wire.only (t == .uuid) u.bytes
  | .date d => Wire.only (t == .date) (Wire.signed 4 d.day)
  | .timestamp s => Wire.only (t == .timestamp) (Wire.signed 8 s.micros)
  | .timestampTz s => Wire.only (t == .timestampTz) (Wire.signed 8 s.micros)
  | .param p => p.bindTo t
  | .array _ => .error (.notBindable "array")
  | .fragment _ => .error (.notBindable "sql fragment")
  | .query _ => .error (.notBindable "sub-query")

-- Any value goes for a driver value; what stands in it is bound as it would be by itself.
def DriverValue.ofValue (serial : Nat) (v : Value) : DriverValue :=
  ⟨serial, fun t => v.bindTo t⟩

end QueryBuilder

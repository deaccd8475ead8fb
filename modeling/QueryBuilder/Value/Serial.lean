import QueryBuilder.Json.Printer
import QueryBuilder.Value

/-!
Values and compiled statements as JSON.

Bytes are arrays of numbers; dates, instants and identifiers are texts. What has its place in the
statement text, and what only the driver looks into, has no JSON form.
-/

set_option autoImplicit false

namespace QueryBuilder

structure Unserializable where
  what : String

def Unserializable.message (u : Unserializable) : String :=
  s!"{u.what} values are not serializable"

mutual
def Value.toJson : Value → Except Unserializable Json
  | .null => .ok .null
  | .bool b => .ok (.bool b)
  | .int n => .ok (.int n.toInt)
  | .float x => .ok (.float x)
  | .text s => .ok (.text s)
  | .bytes b => .ok (.array (b.map fun byte => .int byte.toNat))
  | .json j => .ok j
  | .uuid u => .ok (.text u.write)
  | .date d => .ok (.text d.write)
  | .timestamp t => .ok (.text t.write)
  | .timestampTz t => .ok (.text (t.write ++ "Z"))
  | .array items => (jsonItems items).map .array
  | other => .error ⟨other.describe⟩
termination_by structural x => x

def jsonItems : List Value → Except Unserializable (List Json)
  | [] => .ok []
  | v :: vs =>
      match v.toJson with
      | .error u => .error u
      | .ok j => (jsonItems vs).map fun js => j :: js
termination_by structural x => x
end

def Compiled.toJson (c : Compiled) : Except Unserializable Json :=
  (jsonItems c.params).map fun params => .object [("sql", .text c.sql), ("params", .array params)]

end QueryBuilder

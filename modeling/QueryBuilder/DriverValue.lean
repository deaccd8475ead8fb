/-!
Values that only the driver looks into.

A parameter travels to the server in the binary form of the type that the server expects. Of a driver
value no more is known than what it is turned into for each type, and any value may stand in one: also
one of the library's own.
-/

set_option autoImplicit false

namespace QueryBuilder

-- The server types that some value can be bound to; all others stand under their name.
inductive PgType where
  | bool
  | bytea
  | name
  | int8
  | int2
  | int4
  | text
  | oid
  | json
  | jsonb
  | float4
  | float8
  | unknown
  | bpchar
  | varchar
  | date
  | timestamp
  | timestampTz
  | uuid
  | textArray
  | int8Array
  | other (name : String)
deriving DecidableEq, Repr

def PgType.ofName : String → PgType
  | "bool" => .bool
  | "bytea" => .bytea
  | "name" => .name
  | "int8" => .int8
  | "int2" => .int2
  | "int4" => .int4
  | "text" => .text
  | "oid" => .oid
  | "json" => .json
  | "jsonb" => .jsonb
  | "float4" => .float4
  | "float8" => .float8
  | "unknown" => .unknown
  | "bpchar" => .bpchar
  | "varchar" => .varchar
  | "date" => .date
  | "timestamp" => .timestamp
  | "timestamptz" => .timestampTz
  | "uuid" => .uuid
  | "text_array" => .textArray
  | "int8_array" => .int8Array
  | typeName => .other typeName

-- Why a value was not turned into bytes. A driver value can have reasons of its own, which are known by their text.
inductive BindFault where
  | outOfRange
  | wrongType
  | notBindable (what : String)
  | foreign (message : String)
deriving DecidableEq, Repr

namespace BindFault

def message : BindFault → String
  | outOfRange => "out of range integral type conversion attempted"
  | wrongType => "wrong type"
  | notBindable what =>
      s!"{what} values are spliced into the SQL text and cannot be bound as a parameter"
  | foreign message => message

end BindFault

namespace Wire

abbrev Bytes := List UInt8

end Wire

-- Two of them are the same when they are copies of one object, which the serial number tells. What is null
-- has no bytes.
structure DriverValue where
  serial : Nat
  bindTo : PgType → Except BindFault (Option Wire.Bytes)

end QueryBuilder

import QueryBuilder.Connection.Setting

/-!
Connection settings written as a URL: credentials, hosts with socket numbers, a database and further settings.

Percent escapes are decoded in every part; what comes out has to be text, but for a password and for
a host that is a path.
-/

set_option autoImplicit false

namespace QueryBuilder.Url

def hexByte? (b : UInt8) : Option Nat :=
  Text.hexValue? (Char.ofNat b.toNat)

-- The byte that two hexadecimal digits at the front of some bytes write.
def escaped? : List UInt8 → Option UInt8
  | a :: b :: _ => do
      let hi ← hexByte? a
      let lo ← hexByte? b
      return UInt8.ofNat (16 * hi + lo)
  | _ => none

-- Decodes percent escapes, after passing over the digits of the last one; a percent sign without two
-- digits behind it is itself.
def percentDecode : (skip : Nat) → List UInt8 → List UInt8
  | _, [] => []
  | skip + 1, _ :: rest => percentDecode skip rest
  | 0, c :: rest =>
      match if c = 37 then escaped? rest else none with
      | some b => b :: percentDecode 2 rest
      | none => c :: percentDecode 0 rest

def bytes (text : List Char) : List UInt8 :=
  percentDecode 0 (String.ofList text).toUTF8.toList

def text? (bytes : List UInt8) : Option String :=
  String.fromUTF8? (ByteArray.mk bytes.toArray)

def decode? (text : List Char) : Option String :=
  text? (bytes text)

def setting? (name : String) (value : List Char) : Option Setting :=
  (decode? value).bind (Setting.ofText? name)

-- A host: a name, or a path, which begins with a slash.
def host? (text : List Char) : Option Setting :=
  let value := bytes text
  if value.head? == some 47 then some ⟨"host", value⟩ else setting? "host" text

-- The user, and the password behind the first colon.
def credentials? (text : List Char) : Option (List Setting) :=
  match Text.splitFirst? ':' text with
  | none => (setting? "user" text).map fun user => [user]
  | some (user, password) => (setting? "user" user).map fun user => [user, ⟨"password", bytes password⟩]

def standardSocket : List Char :=
  ['5', '4', '3', '2']

-- A host and the number of its socket; a host between brackets may hold colons.
def hostSocket? : List Char → Option (List Char × List Char)
  | '[' :: text =>
      match Text.splitFirst? ']' text with
      | none => none
      | some (host, []) => some (host, standardSocket)
      | some (host, ':' :: socket) => some (host, socket)
      | some _ => none
  | text => some ((Text.splitFirst? ':' text).getD (text, standardSocket))

def hosts? : List (List Char) → Option (List Setting)
  | [] => some []
  | piece :: rest => do
      let (host, socket) ← hostSocket? piece
      let host ← host? host
      let socket ← setting? "port" socket
      let settings ← hosts? rest
      return host :: socket :: settings

def database? (text : List Char) : Option (List Setting) :=
  if text.isEmpty then some [] else (setting? "dbname" text).map fun database => [database]

-- The settings behind the question mark; `fuel` bounds their number.
def extras? : (fuel : Nat) → List Char → Option (List Setting)
  | _, [] => some []
  | 0, _ => none
  | fuel + 1, text => do
      let (name, rest) ← Text.splitFirst? '=' text
      let name ← decode? name
      let (value, rest) := (Text.splitFirst? '&' rest).getD (rest, [])
      let setting ← if name = "host" then host? value else setting? name value
      let settings ← extras? fuel rest
      return setting :: settings

def parse? (text : List Char) : Option (List Setting) := do
  let (user, text) := match Text.splitFirst? '@' text with
    | some (user, rest) => (credentials? user, rest)
    | none => (some [], text)
  let user ← user
  let (hosts, text) := Text.cutBefore ['/', '?'] text
  let hosts ← if hosts.isEmpty then some [] else hosts? (Text.splitOn ',' hosts)
  let (database, text) := match text with
    | '/' :: rest => Text.cutBefore ['?'] rest
    | _ => ([], text)
  let database ← database? database
  let extras ← extras? text.length (text.drop 1)
  return user ++ hosts ++ database ++ extras

end QueryBuilder.Url

import QueryBuilder.Ident

/-!
Fragments: text in marker form with the parameters its markers consume, in order.

Literal text is escaped when it is pushed, so that it never consumes a parameter; a pushed value
brings its own marker. Appending keeps the tag of the left fragment when it has one.
-/

set_option autoImplicit false

namespace QueryBuilder

namespace Marker

-- The unescaped `?` markers of a text. A backslash escapes a `?` right behind it and nothing else.
def countChars : List Char → Nat
  | [] => 0
  | '\\' :: '?' :: rest => countChars rest
  | c :: rest => (if c = '?' then 1 else 0) + countChars rest

def escapeChar (c : Char) : List Char :=
  if c = '?' then ['\\', '?'] else [c]

def count (text : String) : Nat :=
  countChars text.toList

-- The text with every question mark made literal.
def escape (text : String) : String :=
  String.ofList (text.toList.flatMap escapeChar)

end Marker

namespace Fragment

-- A fragment of text that is in marker form already.
def ofText (text : String) : Fragment :=
  ⟨text, [], none⟩

def empty : Fragment :=
  ofText ""

def literal (text : String) : Fragment :=
  ofText (Marker.escape text)

-- A marker and its value.
def hole (v : Value) : Fragment :=
  ⟨"?", [v], none⟩

def ident (i : Ident) : Fragment :=
  ofText i.markerForm

def append (f g : Fragment) : Fragment :=
  ⟨f.text ++ g.text, f.params ++ g.params, f.tag <|> g.tag⟩

instance : Append Fragment := ⟨append⟩

-- The fragment without its tag: what a statement takes over when it splices one in.
def untagged (f : Fragment) : Fragment :=
  ⟨f.text, f.params, none⟩

def withTag (f : Fragment) (tag : String) : Fragment :=
  ⟨f.text, f.params, some tag⟩

-- Binds a value to the next marker that the text holds already.
def bind (f : Fragment) (v : Value) : Fragment :=
  ⟨f.text, f.params ++ [v], f.tag⟩

def push (f : Fragment) (text : String) : Fragment :=
  f ++ literal text

def pushBind (f : Fragment) (v : Value) : Fragment :=
  f ++ hole v

-- Appends text and parameters of another fragment, and nothing of its tag.
def splice (f g : Fragment) : Fragment :=
  f ++ g.untagged

def pushIdent (f : Fragment) (i : Ident) : Fragment :=
  f ++ ident i

def concat : List Fragment → Fragment
  | [] => empty
  | f :: fs => f ++ concat fs

def joinWith (sep : String) : List Fragment → Fragment
  | [] => empty
  | [f] => f
  | f :: fs => f ++ literal sep ++ joinWith sep fs

-- One marker for each value; no values at all give `NULL`, which matches nothing.
def bindList : List Value → Fragment
  | [] => literal "NULL"
  | v :: vs => joinWith ", " ((v :: vs).map hole)

def pushBindList (f : Fragment) (vs : List Value) : Fragment :=
  f ++ bindList vs

def limitClause (n : Int64) : Fragment :=
  literal " LIMIT " ++ hole (.int n)

def offsetClause (n : Int64) : Fragment :=
  literal " OFFSET " ++ hole (.int n)

def placeholderCount (f : Fragment) : Nat :=
  Marker.count f.text

def isEmpty (f : Fragment) : Bool :=
  f.text.isEmpty

end Fragment

end QueryBuilder

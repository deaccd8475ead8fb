import QueryBuilder.Error

/-!
SQL identifiers: one or more parts with points between them.

An unquoted part is an ASCII letter or underscore, then letters, digits, underscores and dollar
signs. A quoted part is any text without NUL, not empty, between double quotes, a quote inside it
written twice.
-/

set_option autoImplicit false

namespace QueryBuilder

inductive IdentPart where
  | unquoted (name : String)
  | quoted (name : String)
deriving DecidableEq, Repr

structure Ident where
  parts : List IdentPart
deriving DecidableEq, Repr

namespace Ident

inductive Fault where
  | empty
  | nul
  | emptyQuoted
  | unclosedQuoted
  | emptySegment
  | badStart (c : Char)
  | badCharacter (c : Char)
  | trailingPoint
  | missingPoint (c : Char)
deriving DecidableEq, Repr

def Fault.message : Fault → String
  | .empty => "empty identifier"
  | .nul => "NUL character"
  | .emptyQuoted => "empty quoted identifier"
  | .unclosedQuoted => "unclosed quoted identifier"
  | .emptySegment => "empty identifier segment"
  | .badStart c => s!"invalid start character '{c}'"
  | .badCharacter c => s!"invalid character '{c}'"
  | .trailingPoint => "trailing '.'"
  | .missingPoint c => s!"expected '.' between parts, got '{c}'"

-- The character that no identifier holds.
def nulChar : Char := Char.ofNat 0

def isStart (c : Char) : Bool :=
  c == '_' || c.isAlpha

def isContinue (c : Char) : Bool :=
  c == '_' || c == '$' || c.isAlphanum

-- The name of a quoted part and what follows its closing quote, the opening one already read.
def readQuoted : List Char → Except Fault (List Char × List Char)
  | [] => .error .unclosedQuoted
  | '"' :: '"' :: rest => (readQuoted rest).map fun (name, rest) => ('"' :: name, rest)
  | c :: rest =>
      if c = '"' then .ok ([], rest) else (readQuoted rest).map fun (name, rest) => (c :: name, rest)

-- An unquoted part reaches to the next point or the end.
def readUnquoted (input : List Char) : Except Fault (IdentPart × List Char) :=
  match input.takeWhile (· != '.') with
  | [] => .error .emptySegment
  | c :: cs =>
      if isStart c then
        match cs.find? fun d => !isContinue d with
        | some d => .error (.badCharacter d)
        | none => .ok (.unquoted (String.ofList (c :: cs)), input.dropWhile (· != '.'))
      else .error (.badStart c)

def readPart : List Char → Except Fault (IdentPart × List Char)
  | '"' :: rest =>
      match readQuoted rest with
      | .error fault => .error fault
      | .ok ([], _) => .error .emptyQuoted
      | .ok (name, rest) => .ok (.quoted (String.ofList name), rest)
  | input => readUnquoted input

theorem readQuoted_length (input name rest : List Char) (h : readQuoted input = .ok (name, rest)) :
    rest.length ≤ input.length := by
  fun_induction readQuoted input generalizing name rest with
  | case1 => simp at h
  | case2 tail ih =>
      cases read : readQuoted tail with
      | error fault => simp [read, Except.map] at h
      | ok result =>
          obtain ⟨innerName, innerRest⟩ := result
          have bound := ih innerName innerRest read
          simp only [read, Except.map, Except.ok.injEq, Prod.mk.injEq] at h
          obtain ⟨_, rfl⟩ := h
          simp only [List.length_cons]
          omega
  | case3 tail =>
      simp only [Except.ok.injEq, Prod.mk.injEq] at h
      simp [← h.2]
  | case4 c tail _ _ ih =>
      cases read : readQuoted tail with
      | error fault => simp [read, Except.map] at h
      | ok result =>
          obtain ⟨innerName, innerRest⟩ := result
          have bound := ih innerName innerRest read
          simp only [read, Except.map, Except.ok.injEq, Prod.mk.injEq] at h
          obtain ⟨_, rfl⟩ := h
          simp only [List.length_cons]
          omega

theorem readUnquoted_length (input : List Char) (part : IdentPart) (rest : List Char)
    (h : readUnquoted input = .ok (part, rest)) : rest.length ≤ input.length := by
  unfold readUnquoted at h
  split at h
  · simp at h
  · split at h
    · split at h
      · simp at h
      · simp only [Except.ok.injEq, Prod.mk.injEq] at h
        rw [← h.2]
        exact (List.dropWhile_suffix _).length_le
    · simp at h

theorem readPart_length (input : List Char) (part : IdentPart) (rest : List Char)
    (h : readPart input = .ok (part, rest)) : rest.length ≤ input.length := by
  unfold readPart at h
  split at h
  · split at h
    · simp at h
    · simp at h
    · rename_i tail name remaining _ read
      simp only [Except.ok.injEq, Prod.mk.injEq] at h
      have bound := readQuoted_length _ _ _ read
      rw [← h.2]
      simp only [List.length_cons]
      omega
  · exact readUnquoted_length _ _ _ h

-- The parts of a text that is not empty.
def readParts (input : List Char) : Except Fault (List IdentPart) :=
  match _h : readPart input with
  | .error fault => .error fault
  | .ok (part, []) => .ok [part]
  | .ok (_, ['.']) => .error .trailingPoint
  | .ok (part, '.' :: c :: rest) =>
      match readParts (c :: rest) with
      | .error fault => .error fault
      | .ok parts => .ok (part :: parts)
  | .ok (_, c :: _) => .error (.missingPoint c)
termination_by input.length
decreasing_by
  have := readPart_length _ _ _ _h
  simp only [List.length_cons] at this ⊢
  omega

def read (input : List Char) : Except Fault Ident :=
  if input.isEmpty then .error .empty
  else if input.contains nulChar then .error .nul
  else (readParts input).map Ident.mk

def refuse (input : String) (fault : Fault) : Error :=
  .invalidIdentifier s!"'{input}': {fault.message}"

def parse (input : String) : Except Error Ident :=
  (read input.toList).mapError (refuse input)

def quoted (name : String) : Except Error Ident :=
  if name.toList.isEmpty then .error (refuse name .emptyQuoted)
  else if name.toList.contains nulChar then .error (refuse name .nul)
  else .ok ⟨[.quoted name]⟩

-- A character of a quoted name as it is written; `escape` also protects question marks.
def writeChar (escape : Bool) (c : Char) : List Char :=
  if c = '"' then ['"', '"'] else if escape && c == '?' then ['\\', '?'] else [c]

def writePart (escape : Bool) : IdentPart → List Char
  | .unquoted name => name.toList
  | .quoted name => '"' :: (name.toList.flatMap (writeChar escape) ++ ['"'])

def writeParts (escape : Bool) : List IdentPart → List Char
  | [] => []
  | [part] => writePart escape part
  | part :: parts => writePart escape part ++ '.' :: writeParts escape parts

def toSql (i : Ident) : String :=
  String.ofList (writeParts false i.parts)

-- The identifier in marker form, where a question mark is escaped.
def markerForm (i : Ident) : String :=
  String.ofList (writeParts true i.parts)

end Ident

end QueryBuilder

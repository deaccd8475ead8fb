import QueryBuilder.Fragment

/-!
Condition trees: branches that join their children by AND or OR, and leaves of text in marker form.

A leaf without marker and with one parameter is completed to a comparison. A branch with no leaf
below it is blank and gives no text. A single child that is not blank stands bare; two or more are
each put in parentheses, and a group inside another one as a whole.
-/

set_option autoImplicit false

namespace QueryBuilder

-- What may be added to a tree: plain text, with parameters, or a fragment or branch, without.
inductive Cond where
  | text (s : String)
  | fragment (f : Fragment)
  | branch (c : Condition)

namespace Cond

def bareNode : Cond → Node
  | .text s => .leaf s []
  | .fragment f => .leaf "?" [.fragment f]
  | .branch c => .branch c

def toNode (c : Cond) (params : List Value) : Except Error Node :=
  match c with
  | .text s => .ok (.leaf s params)
  | other =>
      if params.isEmpty then .ok other.bareNode
      else .error (.onlyStringConditionCanHaveParams params.length)

end Cond

def leafFragment (text : String) (params : List Value) : Except Error Fragment :=
  if Marker.count text = params.length then .ok ⟨text, params, none⟩
  else
    match params with
    | [v] =>
        if Marker.count text = 0 then
          .ok (if v.isListLike then ⟨text ++ " IN (?)", [v], none⟩
            else if v.isNull then ⟨text ++ " IS NULL", [], none⟩
            else ⟨text ++ " = ?", [v], none⟩)
        else .error (.badParamCount text (Marker.count text) params.length)
    | _ => .error (.badParamCount text (Marker.count text) params.length)

def parenthesized (f : Fragment) : Fragment :=
  .literal "(" ++ f ++ .literal ")"

mutual
-- Whether there is no leaf at any depth.
def Node.isBlank : Node → Bool
  | .leaf _ _ => false
  | .branch c => c.isBlank
termination_by structural x => x

def Condition.isBlank : Condition → Bool
  | ⟨_, children⟩ => allBlank children
termination_by structural x => x

def allBlank : List Node → Bool
  | [] => true
  | n :: ns => n.isBlank && allBlank ns
termination_by structural x => x
end

def solidCount (nodes : List Node) : Nat :=
  (nodes.filter fun n => !n.isBlank).length

mutual
-- The text of a node; `wrap` asks for parentheses around it.
def Node.emit (wrap : Bool) : Node → Except Error Fragment
  | .leaf text params => (leafFragment text params).map fun f => if wrap then parenthesized f else f
  | .branch c => c.emit wrap
termination_by structural x => x

def Condition.emit (wrap : Bool) : Condition → Except Error Fragment
  | ⟨combinator, children⟩ =>
      let many := decide (1 < solidCount children)
      (emitSolid (wrap || many) children).map fun parts =>
        let joined := Fragment.joinWith (" " ++ combinator.keyword ++ " ") parts
        if many && wrap then parenthesized joined else joined
termination_by structural x => x

-- The texts of the children that are not blank, in order, up to the first that fails.
def emitSolid (wrap : Bool) : List Node → Except Error (List Fragment)
  | [] => .ok []
  | n :: ns =>
      if n.isBlank then emitSolid wrap ns
      else
        match n.emit wrap with
        | .error e => .error e
        | .ok f => (emitSolid wrap ns).map fun fs => f :: fs
termination_by structural x => x
end

namespace Condition

def empty (combinator : Combinator) : Condition :=
  ⟨combinator, []⟩

instance : Inhabited Condition := ⟨empty .and⟩

def ofConds (combinator : Combinator) (conds : List Cond) : Condition :=
  ⟨combinator, conds.map Cond.bareNode⟩

def length (c : Condition) : Nat :=
  c.children.length

def isEmpty (c : Condition) : Bool :=
  c.children.isEmpty

def exists? (c : Condition) (offset : Nat) : Bool :=
  offset < c.children.length

def get? (c : Condition) (offset : Nat) : Option Node :=
  c.children[offset]?

def push (c : Condition) (n : Node) : Condition :=
  ⟨c.combinator, c.children ++ [n]⟩

def add (c : Condition) (cond : Cond) (params : List Value) : Except Error Condition :=
  (cond.toNode params).map c.push

-- Puts a node in the place of the child at `offset`, or behind the last one.
def set (c : Condition) (offset : Nat) (cond : Cond) (params : List Value) : Except Error Condition :=
  if c.length < offset then .error (.badOffset offset c.length)
  else
    (cond.toNode params).map fun n =>
      if offset = c.length then c.push n else ⟨c.combinator, c.children.set offset n⟩

def remove (c : Condition) (offset : Nat) : Option Node × Condition :=
  match c.children[offset]? with
  | none => (none, c)
  | some n => (some n, ⟨c.combinator, c.children.eraseIdx offset⟩)

def toFragment (c : Condition) : Except Error Fragment :=
  c.emit false

end Condition

namespace Fragment

-- Appends the text of a tree; a blank tree appends nothing.
def pushCondition (f : Fragment) (c : Condition) : Except Error Fragment :=
  c.toFragment.map f.splice

end Fragment

end QueryBuilder

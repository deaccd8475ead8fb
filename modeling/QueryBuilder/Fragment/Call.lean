import QueryBuilder.Condition

/-!
The calls that build a fragment.
-/

set_option autoImplicit false

namespace QueryBuilder

inductive FragmentCall where
  | push (text : String)
  | pushBind (v : Value)
  | pushBindList (vs : List Value)
  | append (f : Fragment)
  | pushIdent (name : String)
  | pushQuoted (name : String)
  | pushCondition (c : Condition)
  | pushWhere (c : Condition)
  | limit (n : Int64)
  | offset (n : Int64)
  | bind (v : Value)
  | tag (name : String)

namespace Fragment

-- A call that leaves the fragment as it is when it fails.
def attempt (r : Fragment → Except Error Fragment) : Run Fragment Unit := fun f =>
  match r f with
  | .error e => .error e f
  | .ok g => .ok () g

-- Appends ` WHERE ` and a tree that is not blank. The keyword is there before the tree is tried,
-- and stays when the tree fails.
def pushWhere (c : Condition) : Run Fragment Unit := fun f =>
  if c.isBlank then .ok () f else attempt (fun g => g.pushCondition c) (f.push " WHERE ")

def call : FragmentCall → Run Fragment Unit
  | .push text => attempt fun f => .ok (f.push text)
  | .pushBind v => attempt fun f => .ok (f.pushBind v)
  | .pushBindList vs => attempt fun f => .ok (f.pushBindList vs)
  | .append g => attempt fun f => .ok (f ++ g)
  | .pushIdent name => attempt fun f => (Ident.parse name).map f.pushIdent
  | .pushQuoted name => attempt fun f => (Ident.quoted name).map f.pushIdent
  | .pushCondition c => attempt fun f => f.pushCondition c
  | .pushWhere c => pushWhere c
  | .limit n => attempt fun f => .ok (f ++ limitClause n)
  | .offset n => attempt fun f => .ok (f ++ offsetClause n)
  | .bind v => attempt fun f => .ok (f.bind v)
  | .tag name => attempt fun f => .ok (f.withTag name)

-- Calls one after the other up to the first that fails.
def callAll : List FragmentCall → Run Fragment Unit
  | [] => fun f => .ok () f
  | c :: cs => fun f =>
      match call c f with
      | .error e f => .error e f
      | .ok () f => callAll cs f

end Fragment

end QueryBuilder

import QueryBuilder.Proofs.Focus

/-!
Trees that are built through a cursor.

Main statement: there is a program of cursor calls for every condition tree, which goes through the
children of each branch from left to right, into a branch and back out of it. On an empty root every
call of it is answered, and it leaves the cursor at the root and the tree in its place. The tree is the
one that is put together without a cursor as well, each branch before the one around it.
-/

set_option autoImplicit false

namespace QueryBuilder

mutual
-- The calls that put a node behind the children of the branch on which the cursor stands.
def Node.program : Node → List CursorCall
  | .leaf text params => [.add (.text text) params]
  | .branch c => .descend c.combinator :: (c.program ++ [.parent])
termination_by structural x => x

def Condition.program : Condition → List CursorCall
  | ⟨_, children⟩ => programOf children
termination_by structural x => x

def programOf : List Node → List CursorCall
  | [] => []
  | n :: ns => n.program ++ programOf ns
termination_by structural x => x
end

mutual
-- The branch with a node added to it, which is itself put together first.
def Node.addTo (c : Condition) : Node → Except Error Condition
  | .leaf text params => c.add (.text text) params
  | .branch b => b.assembled.bind fun b => c.add (.branch b) []
termination_by structural x => x

def Condition.assembled : Condition → Except Error Condition
  | ⟨combinator, children⟩ => addAll (.ofConds combinator []) children
termination_by structural x => x

def addAll (c : Condition) : List Node → Except Error Condition
  | [] => .ok c
  | n :: ns => (n.addTo c).bind fun c => addAll c ns
termination_by structural x => x
end

namespace Cursor

-- Whatever calls follow, these are answered and lead from one cursor to the other.
def Leads (calls : List CursorCall) (k next : Cursor) : Prop :=
  ∀ rest, callAll (calls ++ rest) k =
    ((calls.map fun _ => .ok .done) ++ (callAll rest next).1, (callAll rest next).2)

theorem leads_nil (k : Cursor) : Leads [] k k :=
  fun _ => rfl

theorem leads_append {before after : List CursorCall} {k next last : Cursor} (first : Leads before k next)
    (second : Leads after next last) : Leads (before ++ after) k last := by
  intro rest
  rw [List.append_assoc, first, second, List.map_append, List.append_assoc]

theorem leads_call {c : CursorCall} {k next : Cursor} (made : call c k = .ok .done next) : Leads [c] k next := by
  intro rest
  have stays : c ≠ .query := by
    rintro rfl
    rw [call] at made
    cases draft : k.draft? <;> simp [draft] at made
  rw [List.singleton_append, callAll, made]
  cases c with
  | query => exact absurd rfl stays
  | _ => rfl

-- The calls are answered, and the cursor stands where they are to lead, in the tree where it stood before.
def Reaches (k : Cursor) (calls : List CursorCall) (f : Focus) : Prop :=
  ∃ next, Leads calls k next ∧ next.At f ∧ k.anchor.SameButTree next.anchor

theorem reaches_append {k : Cursor} {before after : List CursorCall} {f g : Focus} (first : k.Reaches before f)
    (second : ∀ next : Cursor, next.At f → next.Reaches after g) : k.Reaches (before ++ after) g := by
  obtain ⟨next, leads, stands, same⟩ := first
  obtain ⟨last, further, reached, kept⟩ := second next stands
  exact ⟨last, leads_append leads further, reached, Anchor.same_trans same kept⟩

theorem reaches_call {k : Cursor} {f g : Focus} {c : CursorCall} (stands : k.At f)
    (told : f.call k.anchor.kind? c = .ok (.done, g)) : k.Reaches [c] g := by
  have agrees := call_agrees stands c
  rw [told] at agrees
  obtain ⟨answer, reached, same⟩ := agrees
  cases made : call c k with
  | error e next =>
      rw [Run.answer, made] at answer
      cases answer
  | ok reply next =>
      rw [Run.answer, made] at answer
      cases answer
      rw [Run.after, made] at reached same
      exact ⟨next, leads_call made, reached, same⟩

-- A branch is entered empty and left when its children are in it; the frames around it are never opened.
mutual
theorem node_built (n : Node) {k : Cursor} {frames : List Frame} {b : Condition} (stands : k.At ⟨frames, b⟩) :
    k.Reaches n.program ⟨frames, b.push n⟩ := by
  match n with
  | .leaf text params => exact reaches_call stands rfl
  | .branch ⟨combinator, children⟩ =>
      have entered : k.Reaches [.descend combinator] (Focus.down ⟨frames, b⟩ combinator) := reaches_call stands rfl
      rw [Node.program, ← List.singleton_append]
      refine reaches_append entered fun inside within => ?_
      refine reaches_append (nodes_built children within) fun filled around => ?_
      exact reaches_call around rfl

theorem nodes_built (ns : List Node) {k : Cursor} {frames : List Frame} {combinator : Combinator} {before : List Node}
    (stands : k.At ⟨frames, combinator, before⟩) : k.Reaches (programOf ns) ⟨frames, combinator, before ++ ns⟩ := by
  match ns with
  | [] =>
      rw [List.append_nil]
      exact ⟨k, leads_nil k, stands, k.anchor.same_refl⟩
  | n :: ns =>
      rw [programOf, List.append_cons]
      exact reaches_append (node_built n stands) fun next further => nodes_built ns further
end

end Cursor

mutual
theorem node_added (c : Condition) (n : Node) : n.addTo c = .ok (c.push n) := by
  match n with
  | .leaf text params => rfl
  | .branch b =>
      rw [Node.addTo, tree_assembled b]
      rfl

theorem tree_assembled (c : Condition) : c.assembled = .ok c := by
  match c with
  | ⟨combinator, children⟩ => exact all_added combinator [] children

theorem all_added (combinator : Combinator) (before ns : List Node) :
    addAll ⟨combinator, before⟩ ns = .ok ⟨combinator, before ++ ns⟩ := by
  match ns with
  | [] => rw [addAll, List.append_nil]
  | n :: ns =>
      rw [addAll, node_added, List.append_cons]
      exact all_added combinator (before ++ [n]) ns
end

theorem cursor_builds_tree (c : Condition) (k : Cursor) (empty : k.anchor.root? = some (.empty c.combinator))
    (atRoot : k.path = []) :
    (∃ done : Cursor, Cursor.callAll c.program k = (c.program.map fun _ => .ok .done, done) ∧
      Cursor.call .depth done = .ok (.count 0) done ∧ done.anchor.root? = some c ∧
      k.anchor.SameButTree done.anchor) ∧
    ∀ (seeds : List Cond) (rest : List Node), c.children = seeds.map Cond.bareNode ++ rest →
      addAll (.ofConds c.combinator seeds) rest = .ok c := by
  obtain ⟨combinator, children⟩ := c
  constructor
  · have stands : k.At ⟨[], combinator, []⟩ := ⟨empty, atRoot⟩
    obtain ⟨done, leads, reached, same⟩ := Cursor.nodes_built children stands
    have run := leads []
    rw [List.append_nil, Cursor.callAll, List.append_nil] at run
    refine ⟨done, run, ?_, reached.root, same⟩
    simp only [Cursor.call, reached.path, route, List.length_nil]
  · rintro seeds rest rfl
    exact all_added combinator (seeds.map Cond.bareNode) rest

def layeredGroup : Condition :=
  ⟨.and, [.branch (.empty .or), .leaf "b = ?" [.null]]⟩

def layeredTree : Condition :=
  ⟨.or, [.leaf "a" [], .branch layeredGroup, .leaf "c" [.int 1]]⟩

theorem layered_tree_built :
    (Cursor.ofTree (.empty .or)).anchor.root? = some (.empty layeredTree.combinator) ∧
    layeredTree.program = [.add (.text "a") [], .descend .and, .descend .or, .parent, .add (.text "b = ?") [.null],
      .parent, .add (.text "c") [.int 1]] ∧
    (∃ done : Cursor, Cursor.callAll layeredTree.program (.ofTree (.empty .or)) = (.replicate 7 (.ok .done), done) ∧
      Cursor.call .depth done = .ok (.count 0) done ∧ done.anchor.root? = some layeredTree) ∧
    addAll (.ofConds .or [.text "a", .branch layeredGroup]) [.leaf "c" [.int 1]] = .ok layeredTree := by
  have empty : (Cursor.ofTree (.empty .or)).anchor.root? = some (.empty layeredTree.combinator) := rfl
  obtain ⟨⟨done, run, depth, root, -⟩, direct⟩ := cursor_builds_tree layeredTree _ empty rfl
  exact ⟨empty, rfl, ⟨done, run, depth, root⟩, direct [.text "a", .branch layeredGroup] [.leaf "c" [.int 1]] rfl⟩

end QueryBuilder

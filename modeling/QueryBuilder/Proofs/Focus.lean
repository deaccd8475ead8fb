import QueryBuilder.Proofs.Refusals

/-!
What a cursor edits.

Main statement: a cursor stands on a branch of its tree, whatever was done through it before, and a
call reads or edits the children of that branch alone. The rest of the tree and the rest of the query
are as they were. So no call misses its branch, and only a child that is set behind the last place
has a bad offset.
-/

set_option autoImplicit false

namespace QueryBuilder

-- A branch with one child taken out: what stands before that child and behind it.
structure Frame where
  combinator : Combinator
  before : List Node
  after : List Node

def Frame.around (g : Frame) (b : Condition) : Condition :=
  ⟨g.combinator, g.before ++ .branch b :: g.after⟩

-- The tree with a branch in its place, the innermost frame first.
def plug : List Frame → Condition → Condition
  | [], b => b
  | g :: outer, b => plug outer (g.around b)

def route : List Frame → List Nat
  | [] => []
  | g :: outer => route outer ++ [g.before.length]

-- A branch in its tree. No call looks into the frames, and only going up opens one.
structure Focus where
  frames : List Frame
  branch : Condition

namespace Focus

def tree (f : Focus) : Condition :=
  plug f.frames f.branch

def edit (f : Focus) (g : List Node → List Node) : Focus :=
  ⟨f.frames, f.branch.combinator, g f.branch.children⟩

def down (f : Focus) (combinator : Combinator) : Focus :=
  ⟨⟨f.branch.combinator, f.branch.children, []⟩ :: f.frames, .empty combinator⟩

def up? (f : Focus) : Option Focus :=
  match f.frames with
  | [] => none
  | g :: outer => some ⟨outer, g.around f.branch⟩

-- The answer of a call and where it leads, for a tree of a query of a kind or of no query.
def call (kind : Option QueryKind) (f : Focus) : CursorCall → Except Error (CursorReply × Focus)
  | .add cond params => (cond.toNode params).map fun n => (.done, f.edit fun ns => ns ++ [n])
  | .set offset cond params =>
      if f.branch.length < offset then .error (.badOffset offset f.branch.length)
      else (cond.toNode params).map fun n => (.done, f.edit fun ns => ns.take offset ++ n :: ns.drop (offset + 1))
  | .descend combinator => .ok (.done, f.down combinator)
  | .parent =>
      match f.up? with
      | none => .error .noParent
      | some g => .ok (.done, g)
  | .get offset => .ok (.node f.branch.children[offset]?, f)
  | .exists_ offset => .ok (.flag (offset < f.branch.children.length), f)
  | .remove offset => .ok (.node f.branch.children[offset]?, f.edit fun ns => ns.eraseIdx offset)
  | .length => .ok (.count f.branch.children.length, f)
  | .isEmpty => .ok (.flag (f.branch.children.length == 0), f)
  | .combinator => .ok (.combinator f.branch.combinator, f)
  | .depth => .ok (.count f.frames.length, f)
  | .query =>
      match kind with
      | none => .error .noQuery
      | some k => .ok (.kind k, f)

-- Where calls lead, a call that fails leading nowhere.
def next (f : Focus) (told : Except Error (CursorReply × Focus)) : Focus :=
  (told.toOption.map Prod.snd).getD f

def follow (kind : Option QueryKind) (f : Focus) (calls : List CursorCall) : Focus :=
  calls.foldl (fun f c => f.next (f.call kind c)) f

end Focus

theorem around_child (g : Frame) (b : Condition) : (g.around b).children[g.before.length]? = some (.branch b) := by
  simp [Frame.around]

theorem around_set (g : Frame) (b c : Condition) :
    (⟨(g.around b).combinator, (g.around b).children.set g.before.length (.branch c)⟩ : Condition) = g.around c := by
  simp [Frame.around]

theorem branch_at_append (p q : List Nat) (c : Condition) :
    Condition.branchAt? (p ++ q) c = (Condition.branchAt? p c).bind (Condition.branchAt? q) := by
  induction p generalizing c with
  | nil => rfl
  | cons i p ih =>
      rw [List.cons_append, Condition.branchAt?, Condition.branchAt?]
      cases c.children[i]? with
      | none => rfl
      | some n =>
          cases n with
          | leaf => rfl
          | branch b => exact ih b

theorem edit_at_append {α : Type} (f : Condition → Except Error (α × Condition)) (p q : List Nat) (c : Condition) :
    Condition.editAt f (p ++ q) c = Condition.editAt (Condition.editAt f q) p c := by
  induction p generalizing c with
  | nil => rfl
  | cons i p ih =>
      rw [List.cons_append, Condition.editAt, Condition.editAt]
      cases c.children[i]? with
      | none => rfl
      | some n =>
          cases n with
          | leaf => rfl
          | branch b => simp only [ih]

theorem branch_at_route (frames : List Frame) (b : Condition) :
    Condition.branchAt? (route frames) (plug frames b) = some b := by
  induction frames generalizing b with
  | nil => rfl
  | cons g outer ih =>
      rw [route, plug, branch_at_append, ih, Option.bind_some, Condition.branchAt?, around_child]
      rfl

theorem edit_at_route {α : Type} (f : Condition → Except Error (α × Condition)) (frames : List Frame)
    (b : Condition) :
    Condition.editAt f (route frames) (plug frames b) = (f b).map fun r => (r.1, plug frames r.2) := by
  induction frames generalizing f b with
  | nil =>
      change f b = _
      cases f b <;> rfl
  | cons g outer ih =>
      have inner : Condition.editAt f [g.before.length] (g.around b) = (f b).map fun r => (r.1, g.around r.2) := by
        rw [Condition.editAt, around_child]
        simp only [Condition.editAt]
        cases f b with
        | error e => rfl
        | ok r => exact congrArg (fun c => Except.ok (r.1, c)) (around_set g b r.2)
      rw [route, plug, edit_at_append, ih, inner]
      cases f b <;> rfl

theorem put_join_tree_twice (aliasName : String) (c d : Condition) (trees : List JoinTree) :
    putJoinTree aliasName d (putJoinTree aliasName c trees) = putJoinTree aliasName d trees := by
  induction trees with
  | nil => simp [putJoinTree]
  | cons j rest ih => by_cases here : j.aliasName = aliasName <;> simp [putJoinTree, here, ih]

namespace Query

theorem put_tree_here (q : Query) (slot : Slot) (c : Condition) : (q.putTree slot c).tree? slot = some c := by
  cases slot with
  | where_ | having => rfl
  | on aliasName => exact (put_join_tree_lookup aliasName aliasName c q.joinTrees).trans (if_pos rfl)

theorem put_tree_elsewhere (q : Query) {slot other : Slot} (apart : other ≠ slot) (c : Condition) :
    (q.putTree slot c).tree? other = q.tree? other := by
  cases slot with
  | where_ =>
      cases other with
      | where_ => exact absurd rfl apart
      | having | on => rfl
  | having =>
      cases other with
      | having => exact absurd rfl apart
      | where_ | on => rfl
  | on aliasName =>
      cases other with
      | where_ | having => rfl
      | on name =>
          have different : aliasName ≠ name := fun same => apart (by rw [same])
          exact (put_join_tree_lookup aliasName name c q.joinTrees).trans (if_neg different)

theorem put_tree_twice (q : Query) (slot : Slot) (c d : Condition) :
    (q.putTree slot c).putTree slot d = q.putTree slot d := by
  cases slot with
  | where_ | having => rfl
  | on aliasName => simp [putTree, put_join_tree_twice]

theorem put_tree_others (q : Query) (slot : Slot) (c : Condition) :
    (q.putTree slot c).withTrees [] none none = q.withTrees [] none none := by
  cases slot <;> rfl

end Query

-- Two anchors that differ in their tree at most, and in what is remembered of the compiled form.
inductive Anchor.SameButTree : Anchor → Anchor → Prop
  | detached (c d : Condition) : Anchor.SameButTree (.detached c) (.detached d)
  | attached {d e : Draft} {slot : Slot} :
      e.isFinal = d.isFinal →
      (∀ other, other ≠ slot → e.query.tree? other = d.query.tree? other) →
      e.query.withTrees [] none none = d.query.withTrees [] none none →
      Anchor.SameButTree (.attached d slot) (.attached e slot)

namespace Anchor

theorem same_refl (a : Anchor) : a.SameButTree a := by
  cases a with
  | detached c => exact .detached c c
  | attached d slot => exact .attached rfl (fun _ _ => rfl) rfl

theorem same_trans {a b c : Anchor} (first : a.SameButTree b) (second : b.SameButTree c) : a.SameButTree c := by
  cases first with
  | detached =>
      cases second with
      | detached => exact .detached _ _
  | attached final others rest =>
      cases second with
      | attached laterFinal laterOthers laterRest =>
          refine .attached (laterFinal.trans final) (fun other apart => ?_) (laterRest.trans rest)
          rw [laterOthers other apart, others other apart]

theorem put_same (a : Anchor) (c : Condition) : a.SameButTree (a.put c) := by
  cases a with
  | detached root => exact .detached root c
  | attached d slot =>
      exact .attached rfl (fun _ apart => d.query.put_tree_elsewhere apart c) (d.query.put_tree_others slot c)

theorem put_root (a : Anchor) (c : Condition) : (a.put c).root? = some c := by
  cases a with
  | detached root => rfl
  | attached d slot => exact d.query.put_tree_here slot c

theorem root_of_root? {a : Anchor} {c : Condition} (there : a.root? = some c) : a.root = c := by
  cases a with
  | detached root =>
      cases there
      rfl
  | attached d slot =>
      rw [root?] at there
      rw [root, Query.tree, there]
      rfl

theorem put_twice (a : Anchor) (c d : Condition) : (a.put c).put d = a.put d := by
  cases a with
  | detached root => rfl
  | attached draft slot => simp only [put, Draft.replace, Query.put_tree_twice]

-- The kind of the query that the tree belongs to.
def kind? : Anchor → Option QueryKind
  | detached _ => none
  | attached d _ => some d.query.kind

theorem same_kind {a b : Anchor} (same : a.SameButTree b) : b.kind? = a.kind? := by
  cases same with
  | detached => rfl
  | attached _ _ rest =>
      have kinds := congrArg Query.kind rest
      exact congrArg some kinds

end Anchor

-- A cursor that stands on the branch of a focus.
structure Cursor.At (k : Cursor) (f : Focus) : Prop where
  root : k.anchor.root? = some f.tree
  path : k.path = route f.frames

-- A run through a cursor answers what is told of the focus, and leaves the cursor where that leads.
structure Cursor.Agrees (k : Cursor) (f : Focus) (run : Run Cursor CursorReply)
    (told : Except Error (CursorReply × Focus)) : Prop where
  answer : Run.answer run k = told.map Prod.fst
  stands : (Run.after run k).At (f.next told)
  same : k.anchor.SameButTree (Run.after run k).anchor

namespace Cursor

theorem branch_at {k : Cursor} {f : Focus} (stands : k.At f) : k.branch? = some f.branch := by
  rw [branch?, stands.root, stands.path, Option.bind_some]
  exact branch_at_route f.frames f.branch

theorem edit_at {k : Cursor} {f : Focus} (stands : k.At f) {α : Type}
    (change : Condition → Except Error (α × Condition)) :
    edit change k =
      match change f.branch with
      | .error e => .error e ⟨k.anchor.put f.tree, k.path⟩
      | .ok (a, b) => .ok a ⟨k.anchor.put (plug f.frames b), k.path⟩ := by
  have root : k.anchor.root = f.tree := Anchor.root_of_root? stands.root
  have opened : k.anchor.opened = k.anchor.put f.tree := by
    rw [Anchor.opened, root]
  have planted : (k.anchor.put f.tree).root = f.tree := Anchor.root_of_root? (k.anchor.put_root f.tree)
  have edited : Condition.editAt change k.path f.tree = (change f.branch).map fun r => (r.1, plug f.frames r.2) := by
    rw [stands.path]
    exact edit_at_route change f.frames f.branch
  simp only [edit, opened, planted, edited]
  cases change f.branch with
  | error e => rfl
  | ok r => simp only [Except.map, Anchor.put_twice]

theorem put_at {k : Cursor} {f : Focus} (stands : k.At f) (b : Condition) :
    At ⟨k.anchor.put (plug f.frames b), k.path⟩ ⟨f.frames, b⟩ :=
  ⟨k.anchor.put_root _, stands.path⟩

theorem agrees_of_ok {k j : Cursor} {f g : Focus} {run : Run Cursor CursorReply} {reply : CursorReply}
    (made : run k = .ok reply j) (stands : j.At g) (same : k.anchor.SameButTree j.anchor) :
    k.Agrees f run (.ok (reply, g)) := by
  constructor
  · rw [Run.answer, made]
    rfl
  · rw [Run.after, made]
    exact stands
  · rw [Run.after, made]
    exact same

-- An edit of the branch, told as an edit of the focus.
theorem edit_agrees {k : Cursor} {f : Focus} (stands : k.At f)
    (change : Condition → Except Error (CursorReply × Condition)) :
    k.Agrees f (edit change) ((change f.branch).map fun r => (r.1, ⟨f.frames, r.2⟩)) := by
  have edited := edit_at stands change
  cases changed : change f.branch with
  | error e =>
      rw [changed] at edited
      constructor
      · rw [Run.answer, edited]
        rfl
      · rw [Run.after, edited]
        exact put_at stands f.branch
      · rw [Run.after, edited]
        exact k.anchor.put_same _
  | ok r =>
      rw [changed] at edited
      exact agrees_of_ok edited (put_at stands r.2) (k.anchor.put_same _)

theorem descend_agrees {k : Cursor} {f : Focus} (stands : k.At f) (combinator : Combinator) :
    k.Agrees f (call (.descend combinator)) (.ok (.done, f.down combinator)) := by
  have made : call (.descend combinator) k =
      .ok .done ⟨k.anchor.put (plug f.frames (f.branch.push (.branch (.empty combinator)))),
        k.path ++ [f.branch.length]⟩ := by
    simp only [call, descend, edit_at stands]
  refine agrees_of_ok made ⟨k.anchor.put_root _, ?_⟩ (k.anchor.put_same _)
  rw [stands.path]
  rfl

theorem parent_agrees {k : Cursor} {f : Focus} (stands : k.At f) (kind : Option QueryKind) :
    k.Agrees f (call .parent) (f.call kind .parent) := by
  obtain ⟨anchor, path⟩ := k
  obtain ⟨frames, b⟩ := f
  obtain ⟨root, rfl⟩ := stands
  cases frames with
  | nil => exact ⟨rfl, ⟨root, rfl⟩, anchor.same_refl⟩
  | cons g outer =>
      have made : call .parent ⟨anchor, route (g :: outer)⟩ = .ok .done ⟨anchor, route outer⟩ := by
        simp [call, parent, route]
      exact agrees_of_ok made ⟨root, rfl⟩ anchor.same_refl

theorem put_after_set (c : Condition) (offset : Nat) (within : ¬ c.length < offset) (n : Node) :
    (⟨c.combinator, c.children.take offset ++ n :: c.children.drop (offset + 1)⟩ : Condition) =
      if offset = c.length then c.push n else ⟨c.combinator, c.children.set offset n⟩ := by
  by_cases last : offset = c.length
  · have nothing : c.children.drop (offset + 1) = [] := List.drop_of_length_le (by simp [last, Condition.length])
    rw [if_pos last, nothing, last, Condition.length, List.take_length, Condition.push]
  · have inside : offset < c.children.length := Nat.lt_of_le_of_ne (Nat.le_of_not_lt within) last
    rw [if_neg last, List.set_eq_take_append_cons_drop, if_pos inside]

-- Of the calls that change the branch, each makes the change that a focus makes.
theorem add_agrees {k : Cursor} {f : Focus} (stands : k.At f) (cond : Cond) (params : List Value) :
    k.Agrees f (call (.add cond params)) (f.call k.anchor.kind? (.add cond params)) := by
  have told : f.call k.anchor.kind? (.add cond params) =
      ((f.branch.add cond params).map fun c => (CursorReply.done, c)).map fun r => (r.1, ⟨f.frames, r.2⟩) := by
    rw [Focus.call, Condition.add]
    cases cond.toNode params <;> rfl
  rw [told]
  exact edit_agrees stands fun c => (c.add cond params).map fun c => (.done, c)

theorem set_agrees {k : Cursor} {f : Focus} (stands : k.At f) (offset : Nat) (cond : Cond) (params : List Value) :
    k.Agrees f (call (.set offset cond params)) (f.call k.anchor.kind? (.set offset cond params)) := by
  have told : f.call k.anchor.kind? (.set offset cond params) =
      ((f.branch.set offset cond params).map fun c => (CursorReply.done, c)).map fun r => (r.1, ⟨f.frames, r.2⟩) := by
    rw [Focus.call, Condition.set]
    by_cases beyond : f.branch.length < offset
    · rw [if_pos beyond, if_pos beyond]
      rfl
    · rw [if_neg beyond, if_neg beyond]
      cases cond.toNode params with
      | error e => rfl
      | ok n => simp only [Except.map, Focus.edit, put_after_set _ _ beyond]
  rw [told]
  exact edit_agrees stands fun c => (c.set offset cond params).map fun c => (.done, c)

theorem remove_erases (c : Condition) (offset : Nat) :
    c.remove offset = (c.children[offset]?, ⟨c.combinator, c.children.eraseIdx offset⟩) := by
  obtain ⟨combinator, children⟩ := c
  rw [Condition.remove]
  cases found : children[offset]? with
  | none => rw [List.eraseIdx_of_length_le (List.getElem?_eq_none_iff.mp found)]
  | some n => rfl

theorem remove_agrees {k : Cursor} {f : Focus} (stands : k.At f) (offset : Nat) :
    k.Agrees f (call (.remove offset)) (f.call k.anchor.kind? (.remove offset)) := by
  have told : f.call k.anchor.kind? (.remove offset) =
      (Except.ok (.node (f.branch.remove offset).1, (f.branch.remove offset).2) :
        Except Error (CursorReply × Condition)).map fun r => (r.1, ⟨f.frames, r.2⟩) := by
    rw [remove_erases]
    rfl
  rw [told]
  exact edit_agrees stands fun c => .ok (.node (c.remove offset).1, (c.remove offset).2)

theorem length_route (frames : List Frame) : (route frames).length = frames.length := by
  induction frames with
  | nil => rfl
  | cons g outer ih => simp [route, ih]

theorem quiet_agrees {k : Cursor} {f : Focus} (stands : k.At f) {run : Run Cursor CursorReply} {reply : CursorReply}
    (quiet : run k = .ok reply k) : k.Agrees f run (.ok (reply, f)) :=
  agrees_of_ok quiet stands k.anchor.same_refl

-- One step of a cursor is the step of the focus it stands on.
theorem call_agrees {k : Cursor} {f : Focus} (stands : k.At f) (c : CursorCall) :
    k.Agrees f (call c) (f.call k.anchor.kind? c) := by
  have branch := branch_at stands
  cases c with
  | add cond params => exact add_agrees stands cond params
  | set offset cond params => exact set_agrees stands offset cond params
  | remove offset => exact remove_agrees stands offset
  | descend combinator => exact descend_agrees stands combinator
  | parent => exact parent_agrees stands _
  | get offset => exact quiet_agrees stands (by simp only [call, branch]; rfl)
  | exists_ offset => exact quiet_agrees stands (by simp only [call, branch]; rfl)
  | length => exact quiet_agrees stands (by simp only [call, length, branch]; rfl)
  | isEmpty => exact quiet_agrees stands (by simp only [call, length, branch]; rfl)
  | combinator => exact quiet_agrees stands (by simp only [call, branch]; rfl)
  | depth => exact quiet_agrees stands (by simp only [call, stands.path, length_route])
  | query =>
      obtain ⟨anchor, path⟩ := k
      cases anchor with
      | detached root => exact ⟨rfl, stands, Anchor.same_refl _⟩
      | attached d slot => exact quiet_agrees stands rfl

theorem refused_node {cond : Cond} {params : List Value} {e : Error} (refused : cond.toNode params = .error e) :
    e = .onlyStringConditionCanHaveParams params.length := by
  cases cond with
  | text s => cases refused
  | fragment | branch =>
      by_cases bare : params.isEmpty = true
      · simp [Cond.toNode, bare] at refused
      · simp [Cond.toNode, bare] at refused
        exact refused.symm

end Cursor

-- Only a child that is set behind the last place has a bad offset.
theorem Focus.bad_offset_set {kind : Option QueryKind} {f : Focus} {c : CursorCall} {offset len : Nat}
    (failed : f.call kind c = .error (.badOffset offset len)) :
    (∃ cond params, c = .set offset cond params) ∧ len = f.branch.length ∧ len < offset := by
  cases c with
  | add cond params =>
      rw [call] at failed
      cases made : cond.toNode params with
      | error e => simp [made, Cursor.refused_node made, Except.map] at failed
      | ok n => simp [made, Except.map] at failed
  | set place cond params =>
      rw [call] at failed
      by_cases beyond : f.branch.length < place
      · rw [if_pos beyond] at failed
        cases failed
        exact ⟨⟨cond, params, rfl⟩, rfl, beyond⟩
      · rw [if_neg beyond] at failed
        cases made : cond.toNode params with
        | error e => simp [made, Cursor.refused_node made, Except.map] at failed
        | ok n => simp [made, Except.map] at failed
  | parent => cases above : f.up? <;> simp [call, above] at failed
  | query => cases kind <;> simp [call] at failed
  | descend | get | exists_ | remove | length | isEmpty | combinator | depth => cases failed

-- Whatever a call does, the tree has other children in the branch at most.
theorem Focus.other_children {kind : Option QueryKind} {f : Focus} {c : CursorCall} {reply : CursorReply} {g : Focus}
    (answered : f.call kind c = .ok (reply, g)) :
    ∃ children, g.tree = plug f.frames ⟨f.branch.combinator, children⟩ := by
  obtain ⟨frames, combinator, children⟩ := f
  cases c with
  | add cond params =>
      cases made : cond.toNode params with
      | error e => simp [call, made, Except.map] at answered
      | ok n =>
          simp [call, made, Except.map] at answered
          exact ⟨_, by rw [← answered.2]; rfl⟩
  | set offset cond params =>
      by_cases beyond : Condition.length ⟨combinator, children⟩ < offset
      · simp [call, beyond] at answered
      · cases made : cond.toNode params with
        | error e => simp [call, beyond, made, Except.map] at answered
        | ok n =>
            simp [call, beyond, made, Except.map] at answered
            exact ⟨_, by rw [← answered.2]; rfl⟩
  | parent =>
      cases frames with
      | nil => cases answered
      | cons h outer =>
          cases answered
          exact ⟨children, rfl⟩
  | query =>
      cases kind with
      | none => cases answered
      | some k =>
          cases answered
          exact ⟨children, rfl⟩
  | descend =>
      cases answered
      exact ⟨_, rfl⟩
  | remove =>
      cases answered
      exact ⟨_, rfl⟩
  | get | exists_ | length | isEmpty | combinator | depth =>
      cases answered
      exact ⟨children, rfl⟩

namespace Cursor

-- Where calls leave a cursor.
def after (k : Cursor) (calls : List CursorCall) : Cursor :=
  calls.foldl (fun k c => Run.after (call c) k) k

-- A cursor that stands on a branch, and what each call makes of it.
structure Sound (kind : Option QueryKind) (k : Cursor) (f : Focus) : Prop where
  stands : k.At f
  branch : k.branch? = some f.branch
  calls : ∀ c, k.Agrees f (call c) (f.call kind c)
  others : ∀ c, ∃ children, (Run.after (call c) k).tree = plug f.frames ⟨f.branch.combinator, children⟩
  badOffset : ∀ c offset len, Run.answer (call c) k = .error (.badOffset offset len) →
    (∃ cond params, c = .set offset cond params) ∧ len = f.branch.length ∧ len < offset
  noParent : (∃ e, Run.answer (call .parent) k = .error e) ↔ Run.answer (call .depth) k = .ok (.count 0)
  back : ∀ combinator, Run.answer (call .parent) (k.after [.descend combinator]) = .ok .done ∧
    (k.after [.descend combinator, .parent]).path = k.path ∧
    (k.after [.descend combinator, .parent]).At ⟨f.frames, f.branch.push (.branch (.empty combinator))⟩

theorem tree_at {k : Cursor} {f : Focus} (stands : k.At f) : k.tree = f.tree :=
  Anchor.root_of_root? stands.root

theorem others_kept {k : Cursor} {f : Focus} (stands : k.At f) (c : CursorCall) :
    ∃ children, (Run.after (call c) k).tree = plug f.frames ⟨f.branch.combinator, children⟩ := by
  rw [tree_at (call_agrees stands c).stands]
  cases told : f.call k.anchor.kind? c with
  | error e =>
      obtain ⟨frames, combinator, children⟩ := f
      exact ⟨children, rfl⟩
  | ok r => exact Focus.other_children told

theorem back_from_group {k : Cursor} {f : Focus} (stands : k.At f) (combinator : Combinator) :
    Run.answer (call .parent) (k.after [.descend combinator]) = .ok .done ∧
      (k.after [.descend combinator, .parent]).path = k.path ∧
      (k.after [.descend combinator, .parent]).At ⟨f.frames, f.branch.push (.branch (.empty combinator))⟩ := by
  have inside : (k.after [.descend combinator]).At (f.down combinator) := (descend_agrees stands combinator).stands
  have returned := parent_agrees inside none
  have back : (k.after [.descend combinator, .parent]).At ⟨f.frames, f.branch.push (.branch (.empty combinator))⟩ :=
    returned.stands
  exact ⟨returned.answer, back.path.trans stands.path.symm, back⟩

theorem sound_of_at {k : Cursor} {f : Focus} (stands : k.At f) : k.Sound k.anchor.kind? f where
  stands := stands
  branch := branch_at stands
  calls := call_agrees stands
  others := others_kept stands
  badOffset c offset len failed := by
    rw [(call_agrees stands c).answer] at failed
    cases told : f.call k.anchor.kind? c with
    | error e =>
        rw [told] at failed
        cases failed
        exact Focus.bad_offset_set told
    | ok r =>
        rw [told] at failed
        cases failed
  noParent := by
    obtain ⟨anchor, path⟩ := k
    cases path with
    | nil => exact ⟨fun _ => rfl, fun _ => ⟨.noParent, rfl⟩⟩
    | cons i path => simp [Run.answer, call, parent]
  back := back_from_group stands

theorem after_calls (calls : List CursorCall) {k : Cursor} {f : Focus} (stands : k.At f) :
    (k.after calls).At (f.follow k.anchor.kind? calls) ∧ k.anchor.SameButTree (k.after calls).anchor := by
  induction calls generalizing k f with
  | nil => exact ⟨stands, k.anchor.same_refl⟩
  | cons c calls ih =>
      have agrees := call_agrees stands c
      obtain ⟨later, kept⟩ := ih agrees.stands
      rw [Anchor.same_kind agrees.same] at later
      exact ⟨later, Anchor.same_trans agrees.same kept⟩

end Cursor

-- Where a cursor is opened: at the root of a free tree, or in a tree of a draft.
inductive Entry where
  | tree (c : Condition)
  | draft (d : Draft) (opening : Opening)

namespace Entry

def anchor : Entry → Anchor
  | tree c => .detached c
  | draft d (.root slot) => .attached d slot
  | draft d (.group slot _) => .attached d slot

def cursor : Entry → Cursor
  | tree c => .ofTree c
  | draft d opening => opening.cursor d

def focus : Entry → Focus
  | tree c => ⟨[], c⟩
  | draft d (.root slot) => ⟨[], d.query.tree slot⟩
  | draft d (.group slot combinator) => Focus.down ⟨[], d.query.tree slot⟩ combinator

end Entry

theorem at_root (d : Draft) (slot : Slot) : (Cursor.atRoot d slot).At ⟨[], d.query.tree slot⟩ :=
  ⟨d.query.put_tree_here slot _, rfl⟩

theorem entry_stands (entry : Entry) :
    entry.cursor.At entry.focus ∧ entry.anchor.SameButTree entry.cursor.anchor := by
  cases entry with
  | tree c => exact ⟨⟨rfl, rfl⟩, .detached c c⟩
  | draft d opening =>
      have opened (slot : Slot) : (Anchor.attached d slot).SameButTree (Cursor.atRoot d slot).anchor :=
        Anchor.put_same _ _
      cases opening with
      | root slot => exact ⟨at_root d slot, opened slot⟩
      | group slot combinator =>
          have agrees := Cursor.descend_agrees (at_root d slot) combinator
          rw [Entry.cursor, Opening.cursor, in_branch_after, ← after_call_descend]
          exact ⟨agrees.stands, Anchor.same_trans (opened slot) agrees.same⟩

theorem cursor_edits_its_branch (entry : Entry) (calls : List CursorCall) :
    (entry.cursor.after calls).Sound entry.anchor.kind? (entry.focus.follow entry.anchor.kind? calls) ∧
      entry.anchor.SameButTree (entry.cursor.after calls).anchor := by
  obtain ⟨opened, same⟩ := entry_stands entry
  obtain ⟨stands, kept⟩ := Cursor.after_calls calls opened
  have throughout := Anchor.same_trans same kept
  have sound := Cursor.sound_of_at stands
  rw [Anchor.same_kind throughout, Anchor.same_kind same] at sound
  exact ⟨sound, throughout⟩

end QueryBuilder

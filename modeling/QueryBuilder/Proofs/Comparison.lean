import Mathlib.Data.List.Forall2
import Mathlib.Data.List.Perm.Subperm
import Mathlib.Logic.Relation
import QueryBuilder.Proofs.Contents
import QueryBuilder.Proofs.NumberingSteps
import QueryBuilder.Proofs.TreeShapes
import QueryBuilder.Value.Equality

/-!
The comparison of two values, one level at a time.

Main statement: two values are the same when they have one shape and the values that they hold are the
same one by one. What a comparison keeps when it is turned around, or put behind another, it keeps as
long as the comparison of the values held does.
-/

set_option autoImplicit false

namespace QueryBuilder

abbrev Comparison := Value → Value → Prop

-- How a comparison of values is carried over to what holds values: `a` is compared by comparing what
-- it holds, and by nothing else that could break a law.
structure Lifts {α : Type} (held : α → List Value) (lift : Comparison → α → α → Prop) (a : α) : Prop where
  mono : ∀ {R S : Comparison} {b : α}, (∀ v ∈ held a, ∀ w, R v w → S v w) → lift R a b → lift S a b
  flip : ∀ {R : Comparison} {b : α}, lift R a b → lift (fun v w => R w v) b a
  comp : ∀ {R S : Comparison} {b c : α}, lift R a b → lift S b c → lift (Relation.Comp R S) a c
  self : ∀ {R : Comparison}, lift R a a ↔ ∀ v ∈ held a, R v v

section Lifts

variable {α β : Type} {held : α → List Value} {lift : Comparison → α → α → Prop}

theorem lifts_value (v : Value) : Lifts (fun v => [v]) (fun R => R) v where
  mono agree := agree v (List.mem_singleton_self v) _
  flip related := related
  comp first second := ⟨_, first, second⟩
  self := by simp

theorem lifts_list {as : List α} (each : ∀ a ∈ as, Lifts held lift a) :
    Lifts (fun as => as.flatMap held) (fun R => List.Forall₂ (lift R)) as := by
  induction as with
  | nil =>
      refine ⟨fun _ related => ?_, fun related => ?_, fun first second => ?_, by simp⟩
      · cases related
        exact .nil
      · cases related
        exact .nil
      · cases first
        cases second
        exact .nil
  | cons a as ih =>
      obtain ⟨head, others⟩ := List.forall_mem_cons.mp each
      have tail := ih others
      refine ⟨fun agree related => ?_, fun related => ?_, fun first second => ?_, fun {R} => ?_⟩
      · rw [List.flatMap_cons, List.forall_mem_append] at agree
        cases related with
        | cons here rest => exact .cons (head.mono agree.1 here) (tail.mono agree.2 rest)
      · cases related with
        | cons here rest => exact .cons (head.flip here) (tail.flip rest)
      · cases first with
        | cons here rest =>
            cases second with
            | cons there beyond => exact .cons (head.comp here there) (tail.comp rest beyond)
      · rw [List.flatMap_cons, List.forall_mem_append, List.forall₂_cons, head.self, tail.self]

theorem lifts_option {o : Option α} (each : ∀ a, o = some a → Lifts held lift a) :
    Lifts (fun o => o.toList.flatMap held) (fun R => Option.Rel (lift R)) o := by
  cases o with
  | none =>
      refine ⟨fun _ related => ?_, fun related => ?_, fun first second => ?_, ?_⟩
      · cases related
        exact .none
      · cases related
        exact .none
      · cases first
        cases second
        exact .none
      · simp
  | some a =>
      have inner := each a rfl
      refine ⟨fun agree related => ?_, fun related => ?_, fun first second => ?_, fun {R} => ?_⟩
      · cases related with
        | some here => exact .some (inner.mono (by simpa using agree) here)
      · cases related with
        | some here => exact .some (inner.flip here)
      · cases first with
        | some here =>
            cases second with
            | some there => exact .some (inner.comp here there)
      · rw [Option.toList_some, List.flatMap_singleton, ← inner.self]
        exact Option.rel_some_some

theorem lifts_and {held' : α → List Value} {lift' : Comparison → α → α → Prop} {a : α} (one : Lifts held lift a)
    (two : Lifts held' lift' a) : Lifts (fun a => held a ++ held' a) (fun R a b => lift R a b ∧ lift' R a b) a where
  mono agree related :=
    ⟨one.mono (fun v member => agree v (by simp [member])) related.1,
      two.mono (fun v member => agree v (by simp [member])) related.2⟩
  flip related := ⟨one.flip related.1, two.flip related.2⟩
  comp first second := ⟨one.comp first.1 second.1, two.comp first.2 second.2⟩
  self := by
    intro R
    rw [List.forall_mem_append, one.self, two.self]

-- What is read off is compared, and holds no values.
theorem lifts_look {κ : Type} (look : α → κ) (a : α) : Lifts (fun _ => []) (fun _ a b => look a = look b) a where
  mono _ same := same
  flip same := same.symm
  comp first second := first.trans second
  self := by simp

theorem lifts_holding {held' : α → List Value} {a : α} (same : ∀ a, held' a = held a) (lifts : Lifts held lift a) :
    Lifts held' lift a := by
  rw [funext same]
  exact lifts

theorem lifts_of {f : β → α} {b : β} (lifts : Lifts held lift (f b)) :
    Lifts (fun b => held (f b)) (fun R a b => lift R (f a) (f b)) b where
  mono := lifts.mono
  flip := lifts.flip
  comp := lifts.comp
  self := lifts.self

-- A constructor is compared with another of its own by comparing what is under them.
theorem lifts_under {held' : β → List Value} {lift' : Comparison → β → β → Prop} {f : α → β}
    (injective : Function.Injective f) (under : ∀ R a c, lift' R (f a) c ↔ ∃ b, c = f b ∧ lift R a b)
    {a : α} (holds : held' (f a) = held a) (lifts : Lifts held lift a) : Lifts held' lift' (f a) where
  mono agree related := by
    obtain ⟨b, rfl, inner⟩ := (under _ _ _).mp related
    exact (under _ _ _).mpr ⟨b, rfl, lifts.mono (holds ▸ agree) inner⟩
  flip related := by
    obtain ⟨b, rfl, inner⟩ := (under _ _ _).mp related
    exact (under _ _ _).mpr ⟨a, rfl, lifts.flip inner⟩
  comp first second := by
    obtain ⟨b, rfl, inner⟩ := (under _ _ _).mp first
    obtain ⟨c, rfl, next⟩ := (under _ _ _).mp second
    exact (under _ _ _).mpr ⟨c, rfl, lifts.comp inner next⟩
  self := by
    intro R
    rw [holds, ← lifts.self]
    constructor
    · intro related
      obtain ⟨b, same, inner⟩ := (under _ _ _).mp related
      rwa [← injective same] at inner
    · intro inner
      exact (under _ _ _).mpr ⟨a, rfl, inner⟩

end Lifts

-- What shows in two things is equal, and what they hold is related one by one.
def Matched {α κ : Type} (look : α → κ) (held : α → List Value) (R : Comparison) (a b : α) : Prop :=
  look a = look b ∧ List.Forall₂ R (held a) (held b)

theorem lifts_values (vs : List Value) : Lifts (fun vs => vs) (fun R => List.Forall₂ R) vs := by
  have lifts := lifts_list fun v (_ : v ∈ vs) => lifts_value v
  simpa only [List.flatMap_singleton'] using lifts

theorem lifts_matched {α κ : Type} (look : α → κ) (held : α → List Value) (a : α) :
    Lifts held (Matched look held) a := by
  have values : Lifts held (fun R a b => List.Forall₂ R (held a) (held b)) a := lifts_of (f := held) (lifts_values (held a))
  exact lifts_and (lifts_look look a) values

def Expr.text? : Expr → Option String
  | .raw text => some text
  | .value _ => none

def TableSource.name? : TableSource → Option String
  | .name s => some s
  | _ => none

def Expr.Matches : Comparison → Expr → Expr → Prop :=
  Matched Expr.text? Expr.values

def SelectItem.Matches : Comparison → SelectItem → SelectItem → Prop :=
  Matched (fun i => (i.aliasName, i.expr.text?)) SelectItem.values

def Table.Matches : Comparison → Table → Table → Prop :=
  Matched (fun t => (t.aliasName, t.role, t.source.name?)) Table.values

def SetOperation.Matches : Comparison → SetOperation → SetOperation → Prop :=
  Matched SetOperation.operator SetOperation.values

def Cell.Matches : Comparison → Cell → Cell → Prop :=
  Matched Cell.column Cell.values

def Fragment.Matches (R : Comparison) (f g : Fragment) : Prop :=
  Matched (fun f : Fragment => (f.text, f.tag)) Fragment.params R f g

-- Leaves of one text, with parameters that are related.
def LeavesMatch (R : Comparison) (s : String) (vs : List Value) (t : String) (ws : List Value) : Prop :=
  s = t ∧ List.Forall₂ R vs ws

theorem leaves_of_flat (ns : List Node) :
    (leavesOf ns).flatMap Prod.snd = ns.flatMap fun n => n.leaves.flatMap Prod.snd := by
  induction ns with
  | nil => rfl
  | cons n ns ih => rw [leavesOf, List.flatMap_append, List.flatMap_cons, ih]

mutual
theorem lifts_node (n : Node) :
    Lifts (fun n => n.leaves.flatMap Prod.snd) (fun R m n => m.Matches (LeavesMatch R) n) n := by
  match n with
  | .leaf text params =>
      refine lifts_under (f := Node.leaf text) (fun _ _ same => (Node.leaf.inj same).2) (fun R vs n => ?_) ?_
        (lifts_values params)
      · constructor
        · intro shape
          cases shape with
          | leaf related =>
              obtain ⟨rfl, params⟩ := related
              exact ⟨_, rfl, params⟩
        · rintro ⟨ws, rfl, params⟩
          exact .leaf ⟨rfl, params⟩
      · simp [Node.leaves]
  | .branch c =>
      refine lifts_under (f := Node.branch) (fun _ _ same => Node.branch.inj same) (fun R c n => ?_) ?_ (lifts_tree c)
      · constructor
        · intro shape
          cases shape with
          | branch below => exact ⟨_, rfl, below⟩
        · rintro ⟨d, rfl, below⟩
          exact .branch below
      · rw [Node.leaves, Condition.values]

theorem lifts_tree (c : Condition) :
    Lifts Condition.values (fun R c d => c.Matches (LeavesMatch R) d) c := by
  match c with
  | ⟨combinator, children⟩ =>
      refine lifts_under (f := Condition.mk combinator) (fun _ _ same => (Condition.mk.inj same).2) (fun R ns d => ?_) ?_
        (lifts_list (lifts_nodes children))
      · constructor
        · intro shape
          cases shape with
          | mk _ below => exact ⟨_, rfl, below⟩
        · rintro ⟨ns, rfl, below⟩
          exact .mk combinator below
      · rw [Condition.values, Condition.leaves, leaves_of_flat]

theorem lifts_nodes (ns : List Node) :
    ∀ n ∈ ns, Lifts (fun n => n.leaves.flatMap Prod.snd) (fun R m n => m.Matches (LeavesMatch R) n) n := by
  match ns with
  | [] => exact nofun
  | n :: ns => exact List.forall_mem_cons.mpr ⟨lifts_node n, lifts_nodes ns⟩
end

def Condition.Compares (R : Comparison) (c d : Condition) : Prop :=
  c.Matches (LeavesMatch R) d

-- Under one set of aliases, whatever their order, trees that are alike.
def JoinTreesMatch (R : Comparison) (q r : Query) : Prop :=
  (q.joinTrees.map JoinTree.aliasName).Perm (r.joinTrees.map JoinTree.aliasName) ∧
    ∀ aliasName, Option.Rel (Condition.Compares R) (q.joinTree? aliasName) (r.joinTree? aliasName)

theorem keyed_lookup {q : Query} (keyed : q.Keyed) {j : JoinTree} (member : j ∈ q.joinTrees) :
    q.joinTree? j.aliasName = some j.tree := by
  unfold Query.Keyed at keyed
  unfold Query.joinTree?
  generalize q.joinTrees = trees at keyed member ⊢
  induction trees with
  | nil => cases member
  | cons first rest ih =>
      rw [List.map_cons, List.nodup_cons] at keyed
      rw [List.find?_cons]
      rcases List.mem_cons.mp member with rfl | later
      · simp
      · have other : first.aliasName ≠ j.aliasName := fun same => keyed.1 (same ▸ List.mem_map_of_mem later)
        rw [beq_false_of_ne other]
        exact ih keyed.2 later

theorem lookup_member {q : Query} {aliasName : String} {c : Condition} (found : q.joinTree? aliasName = some c) :
    ∃ j ∈ q.joinTrees, j.aliasName = aliasName ∧ j.tree = c := by
  obtain ⟨j, first, rfl⟩ := Option.map_eq_some_iff.mp found
  exact ⟨j, List.mem_of_find?_eq_some first, by simpa using List.find?_some first, rfl⟩

theorem lifts_join_trees {q : Query} (keyed : q.Keyed) :
    Lifts (fun q => q.joinTrees.flatMap JoinTree.values) JoinTreesMatch q where
  mono {R S r} agree related := by
    refine ⟨related.1, fun aliasName => ?_⟩
    have tree := lifts_option fun c (_ : q.joinTree? aliasName = some c) => lifts_tree c
    refine tree.mono (fun v member => agree v ?_) (related.2 aliasName)
    obtain ⟨c, found, inside⟩ := List.mem_flatMap.mp member
    obtain ⟨j, listed, -, rfl⟩ := lookup_member (Option.mem_toList.mp found)
    exact List.mem_flatMap.mpr ⟨j, listed, inside⟩
  flip related := ⟨related.1.symm, fun aliasName => (lifts_option fun c _ => lifts_tree c).flip (related.2 aliasName)⟩
  comp first second :=
    ⟨first.1.trans second.1, fun aliasName =>
      (lifts_option fun c _ => lifts_tree c).comp (first.2 aliasName) (second.2 aliasName)⟩
  self {R} := by
    constructor
    · intro related v member
      obtain ⟨j, listed, inside⟩ := List.mem_flatMap.mp member
      have tree := related.2 j.aliasName
      rw [keyed_lookup keyed listed, Option.rel_some_some] at tree
      exact (lifts_tree j.tree).self.mp tree v inside
    · intro each
      refine ⟨.refl _, fun aliasName => ?_⟩
      cases found : q.joinTree? aliasName with
      | none => exact .none
      | some c =>
          obtain ⟨j, listed, -, rfl⟩ := lookup_member found
          exact .some ((lifts_tree j.tree).self.mpr fun v inside => each v (List.mem_flatMap.mpr ⟨j, listed, inside⟩))

-- All of a query that holds no values.
def Query.frame (q : Query) : QueryKind × Bool × Option String × Option Int64 × Option Int64 × List String :=
  (q.kind, q.distinct, q.main, q.limit, q.offset, q.columns)

def Query.Matches (R : Comparison) (q r : Query) : Prop :=
  q.frame = r.frame ∧ List.Forall₂ (SelectItem.Matches R) q.items r.items
    ∧ List.Forall₂ (Table.Matches R) q.tables r.tables ∧ JoinTreesMatch R q r
    ∧ Option.Rel (Condition.Compares R) q.whereTree r.whereTree ∧ List.Forall₂ (Expr.Matches R) q.groupBy r.groupBy
    ∧ Option.Rel (Condition.Compares R) q.havingTree r.havingTree ∧ List.Forall₂ (Expr.Matches R) q.orderBy r.orderBy
    ∧ List.Forall₂ (SetOperation.Matches R) q.setOperations r.setOperations
    ∧ Option.Rel (fun s t => R (.query s) (.query t)) q.source r.source
    ∧ List.Forall₂ (SelectItem.Matches R) q.returning r.returning ∧ List.Forall₂ (Cell.Matches R) q.data r.data
    ∧ List.Forall₂ (List.Forall₂ (Cell.Matches R)) q.rows r.rows
    ∧ List.Forall₂ (fun f g => R (.fragment f) (.fragment g)) q.leading r.leading
    ∧ List.Forall₂ (fun f g => R (.fragment f) (.fragment g)) q.trailing r.trailing

theorem lifts_query {q : Query} (keyed : q.Keyed) : Lifts Query.parts Query.Matches q := by
  have items (is : List SelectItem) := lifts_list fun i (_ : i ∈ is) =>
    lifts_matched (fun i : SelectItem => (i.aliasName, i.expr.text?)) SelectItem.values i
  have tables (ts : List Table) := lifts_list fun t (_ : t ∈ ts) =>
    lifts_matched (fun t : Table => (t.aliasName, t.role, t.source.name?)) Table.values t
  have exprs (es : List Expr) := lifts_list fun e (_ : e ∈ es) => lifts_matched Expr.text? Expr.values e
  have trees (o : Option Condition) := lifts_option fun c (_ : o = some c) => lifts_tree c
  have operations (ss : List SetOperation) := lifts_list fun s (_ : s ∈ ss) =>
    lifts_matched SetOperation.operator SetOperation.values s
  have row (cs : List Cell) := lifts_list fun c (_ : c ∈ cs) => lifts_matched Cell.column Cell.values c
  have source (o : Option Query) :=
    lifts_option fun r (_ : o = some r) => lifts_of (f := Value.query) (lifts_value (.query r))
  have fragments (fs : List Fragment) := lifts_list fun f (_ : f ∈ fs) =>
    lifts_of (f := Value.fragment) (lifts_value (.fragment f))
  have all := lifts_and (lifts_look Query.frame q) <| lifts_and (lifts_of (f := Query.items) (items _)) <|
    lifts_and (lifts_of (f := Query.tables) (tables _)) <| lifts_and (lifts_join_trees keyed) <|
    lifts_and (lifts_of (f := Query.whereTree) (trees _)) <| lifts_and (lifts_of (f := Query.groupBy) (exprs _)) <|
    lifts_and (lifts_of (f := Query.havingTree) (trees _)) <| lifts_and (lifts_of (f := Query.orderBy) (exprs _)) <|
    lifts_and (lifts_of (f := Query.setOperations) (operations _)) <| lifts_and (lifts_of (f := Query.source) (source _)) <|
    lifts_and (lifts_of (f := Query.returning) (items _)) <| lifts_and (lifts_of (f := Query.data) (row _)) <|
    lifts_and (lifts_of (f := Query.rows) (lifts_list fun cs _ => row cs)) <|
    lifts_and (lifts_of (f := Query.leading) (fragments _)) (lifts_of (f := Query.trailing) (fragments _))
  refine lifts_holding (fun q => ?_) all
  simp only [Query.parts, List.append_assoc, List.nil_append]

-- Of an atom there is nothing to compare but itself.
def Value.Matches (R : Comparison) : Value → Value → Prop
  | .array vs, .array ws => List.Forall₂ R vs ws
  | .fragment f, .fragment g => f.Matches R g
  | .query q, .query r => q.Matches R r
  | v, w => v.isAtom ∧ v.same w

theorem lifts_compound {v : Value} (compound : v.isAtom = false) (formed : v.Formed) :
    Lifts Value.parts Value.Matches v := by
  cases v with
  | array vs =>
      refine lifts_under (f := Value.array) (fun _ _ same => Value.array.inj same) (fun R vs w => ?_) rfl (lifts_values vs)
      cases w <;> simp [Value.Matches, Value.isAtom]
  | fragment f =>
      refine lifts_under (f := Value.fragment) (fun _ _ same => Value.fragment.inj same) (fun R f w => ?_) rfl
        (lifts_matched (fun f : Fragment => (f.text, f.tag)) Fragment.params f)
      cases w <;> simp [Value.Matches, Value.isAtom, Fragment.Matches]
  | query q =>
      refine lifts_under (f := Value.query) (fun _ _ same => Value.query.inj same) (fun R q w => ?_) rfl
        (lifts_query formed)
      cases w <;> simp [Value.Matches, Value.isAtom]
  | _ => cases compound

abbrev Same : Comparison :=
  fun v w => v.same w = true

-- A comparison of lists that goes from one pair to the next.
theorem pairwise_iff {α : Type} {sameAll : List α → List α → Bool} {rel : α → α → Prop} (nil : sameAll [] [] = true)
    (cons : ∀ a as b bs, sameAll (a :: as) (b :: bs) = true ↔ rel a b ∧ sameAll as bs = true)
    (longer : ∀ a as, sameAll (a :: as) [] = false) (shorter : ∀ b bs, sameAll [] (b :: bs) = false) (as bs : List α) :
    sameAll as bs = true ↔ List.Forall₂ rel as bs := by
  induction as generalizing bs with
  | nil =>
      cases bs with
      | nil => simp [nil]
      | cons b bs => simp [shorter]
  | cons a as ih =>
      cases bs with
      | nil => simp [longer]
      | cons b bs => rw [cons, List.forall₂_cons, ih]

theorem same_values_iff (vs ws : List Value) : sameValues vs ws = true ↔ List.Forall₂ Same vs ws :=
  pairwise_iff rfl (by simp [sameValues]) (fun _ _ => rfl) (fun _ _ => rfl) vs ws

theorem fragment_same_iff (f g : Fragment) : f.same g = true ↔ f.Matches Same g := by
  obtain ⟨text, params, tag⟩ := f
  simp only [Fragment.same, Fragment.Matches, Matched, Bool.and_eq_true, beq_iff_eq, same_values_iff, Prod.mk.injEq]
  exact and_right_comm

theorem expr_same_iff (a b : Expr) : a.same b = true ↔ a.Matches Same b := by
  cases a <;> cases b <;> simp [Expr.same, Expr.Matches, Matched, Expr.text?, Expr.values]

theorem item_same_iff (a b : SelectItem) : a.same b = true ↔ a.Matches Same b := by
  obtain ⟨aliasName, expr⟩ := a
  simp only [SelectItem.same, SelectItem.Matches, Matched, Bool.and_eq_true, beq_iff_eq, expr_same_iff, Expr.Matches,
    Prod.mk.injEq, SelectItem.values]
  exact and_assoc.symm

theorem source_same_iff (s t : TableSource) :
    s.same t = true ↔ s.name? = t.name? ∧ List.Forall₂ Same s.bound t.bound := by
  cases s <;> cases t <;> simp [TableSource.same, TableSource.name?, TableSource.bound, Same, Value.same]

theorem table_same_iff (s t : Table) : s.same t = true ↔ s.Matches Same t := by
  obtain ⟨aliasName, source, role⟩ := s
  simp only [Table.same, Table.Matches, Matched, Bool.and_eq_true, beq_iff_eq, source_same_iff, Prod.mk.injEq,
    Table.values]
  constructor
  · rintro ⟨⟨aliases, names, values⟩, roles⟩
    exact ⟨⟨aliases, roles, names⟩, values⟩
  · rintro ⟨⟨aliases, roles, names⟩, values⟩
    exact ⟨⟨aliases, names, values⟩, roles⟩

mutual
theorem node_same_iff (m n : Node) : m.same n = true ↔ m.Matches (LeavesMatch Same) n := by
  match m, n with
  | .leaf s vs, .leaf t ws =>
      rw [Node.same, Bool.and_eq_true, beq_iff_eq, same_values_iff]
      exact ⟨fun same => .leaf same, fun | .leaf same => same⟩
  | .branch c, .branch d =>
      rw [Node.same, tree_same_iff c d]
      exact ⟨fun below => .branch below, fun | .branch below => below⟩
  | .leaf _ _, .branch _ => exact ⟨nofun, nofun⟩
  | .branch _, .leaf _ _ => exact ⟨nofun, nofun⟩

theorem tree_same_iff (c d : Condition) : c.same d = true ↔ c.Compares Same d := by
  match c, d with
  | ⟨k, ms⟩, ⟨l, ns⟩ =>
      rw [Condition.same, Bool.and_eq_true, beq_iff_eq, nodes_same_iff ms ns]
      constructor
      · rintro ⟨rfl, below⟩
        exact .mk _ below
      · rintro (⟨_, below⟩)
        exact ⟨rfl, below⟩

theorem nodes_same_iff (ms ns : List Node) :
    sameNodes ms ns = true ↔ List.Forall₂ (Node.Matches (LeavesMatch Same)) ms ns := by
  match ms, ns with
  | [], [] => exact ⟨fun _ => .nil, fun _ => rfl⟩
  | m :: ms, n :: ns =>
      rw [sameNodes, Bool.and_eq_true, List.forall₂_cons, node_same_iff m n, nodes_same_iff ms ns]
  | [], _ :: _ => exact ⟨nofun, nofun⟩
  | _ :: _, [] => exact ⟨nofun, nofun⟩
end

theorem tree_option_same_iff (o p : Option Condition) : sameTree o p = true ↔ Option.Rel (Condition.Compares Same) o p := by
  cases o <;> cases p <;> simp [sameTree, tree_same_iff]

theorem source_option_same_iff (o p : Option Query) :
    sameSource o p = true ↔ Option.Rel (fun s t => Same (.query s) (.query t)) o p := by
  cases o <;> cases p <;> simp [sameSource, Same, Value.same]

theorem same_fragments_iff (fs gs : List Fragment) :
    sameFragments fs gs = true ↔ List.Forall₂ (fun f g => Same (.fragment f) (.fragment g)) fs gs :=
  pairwise_iff rfl (by simp [sameFragments, Same, Value.same]) (fun _ _ => rfl) (fun _ _ => rfl) fs gs

theorem same_exprs_iff (as bs : List Expr) : sameExprs as bs = true ↔ List.Forall₂ (Expr.Matches Same) as bs :=
  pairwise_iff rfl (by simp [sameExprs, expr_same_iff]) (fun _ _ => rfl) (fun _ _ => rfl) as bs

theorem same_items_iff (as bs : List SelectItem) : sameItems as bs = true ↔ List.Forall₂ (SelectItem.Matches Same) as bs :=
  pairwise_iff rfl (by simp [sameItems, item_same_iff]) (fun _ _ => rfl) (fun _ _ => rfl) as bs

theorem same_tables_iff (ss ts : List Table) : sameTables ss ts = true ↔ List.Forall₂ (Table.Matches Same) ss ts :=
  pairwise_iff rfl (by simp [sameTables, table_same_iff]) (fun _ _ => rfl) (fun _ _ => rfl) ss ts

theorem same_operations_iff (ss ts : List SetOperation) :
    sameSetOperations ss ts = true ↔ List.Forall₂ (SetOperation.Matches Same) ss ts :=
  pairwise_iff rfl (fun ⟨_, _⟩ => by simp [sameSetOperations, SetOperation.Matches, Matched, SetOperation.values])
    (fun ⟨_, _⟩ _ => rfl) (fun _ _ => rfl) ss ts

theorem same_cells_iff (as bs : List Cell) : sameCells as bs = true ↔ List.Forall₂ (Cell.Matches Same) as bs :=
  pairwise_iff rfl (fun ⟨_, _⟩ => by simp [sameCells, Cell.Matches, Matched, Cell.values])
    (fun ⟨_, _⟩ _ => rfl) (fun _ _ => rfl) as bs

theorem same_rows_iff (as bs : List (List Cell)) :
    sameRows as bs = true ↔ List.Forall₂ (List.Forall₂ (Cell.Matches Same)) as bs :=
  pairwise_iff rfl (by simp [sameRows, same_cells_iff]) (fun _ _ => rfl) (fun _ _ => rfl) as bs

theorem same_join_trees_iff (ts us : List JoinTree) :
    sameJoinTrees ts us = true ↔
      ∀ j ∈ ts, ∃ o, (us.find? fun o => o.aliasName == j.aliasName) = some o ∧ j.tree.Compares Same o.tree := by
  induction ts with
  | nil => simp [sameJoinTrees]
  | cons j ts ih =>
      obtain ⟨aliasName, tree⟩ := j
      rw [sameJoinTrees, Bool.and_eq_true, ih, List.forall_mem_cons]
      cases us.find? fun o => o.aliasName == aliasName <;> simp [tree_same_iff]

theorem lookup_none_iff (q : Query) (aliasName : String) :
    q.joinTree? aliasName = none ↔ aliasName ∉ q.joinTrees.map JoinTree.aliasName := by
  simp [Query.joinTree?]

-- Every alias of one is one of the other, and there are as many.
theorem join_trees_same_iff {q r : Query} (keyed : q.Keyed) :
    (q.joinTrees.length = r.joinTrees.length ∧ sameJoinTrees q.joinTrees r.joinTrees = true) ↔ JoinTreesMatch Same q r := by
  rw [same_join_trees_iff]
  constructor
  · rintro ⟨length, each⟩
    have within : q.joinTrees.map JoinTree.aliasName ⊆ r.joinTrees.map JoinTree.aliasName := by
      intro aliasName member
      obtain ⟨j, listed, rfl⟩ := List.mem_map.mp member
      obtain ⟨o, found, -⟩ := each j listed
      exact List.mem_map.mpr ⟨o, List.mem_of_find?_eq_some found, by simpa using List.find?_some found⟩
    have aliases : (q.joinTrees.map JoinTree.aliasName).Perm (r.joinTrees.map JoinTree.aliasName) :=
      (List.Nodup.subperm keyed within).perm_of_length_le (by simp [length])
    refine ⟨aliases, fun aliasName => ?_⟩
    cases found : q.joinTree? aliasName with
    | none =>
        rw [lookup_none_iff, aliases.mem_iff, ← lookup_none_iff] at found
        rw [found]
        exact .none
    | some c =>
        obtain ⟨j, listed, rfl, rfl⟩ := lookup_member found
        obtain ⟨o, other, same⟩ := each j listed
        rw [Query.joinTree?, other]
        exact .some same
  · rintro ⟨aliases, trees⟩
    refine ⟨by simpa using aliases.length_eq, fun j listed => ?_⟩
    have tree := trees j.aliasName
    rw [keyed_lookup keyed listed] at tree
    cases found : r.joinTrees.find? fun o => o.aliasName == j.aliasName with
    | none =>
        rw [Query.joinTree?, found] at tree
        cases tree
    | some o =>
        rw [Query.joinTree?, found] at tree
        exact ⟨o, rfl, Option.rel_some_some.mp tree⟩

theorem query_same_iff {q r : Query} (keyed : q.Keyed) : q.same r = true ↔ q.Matches Same r := by
  have trees := join_trees_same_iff (r := r) keyed
  obtain ⟨kind, items, distinct, tables, main, joinTrees, whereTree, groupBy, havingTree, orderBy, limit, offset,
    setOperations, columns, source, returning, data, rows, leading, trailing⟩ := q
  simp only [Query.same, Query.Matches, Query.frame, Bool.and_eq_true, beq_iff_eq, Prod.mk.injEq, ← trees,
    tree_option_same_iff, source_option_same_iff, same_fragments_iff, same_exprs_iff, same_items_iff, same_tables_iff,
    same_operations_iff, same_cells_iff, same_rows_iff]
  tauto

theorem value_same_iff {v : Value} (formed : v.Formed) (w : Value) : v.same w = true ↔ v.Matches Same w := by
  cases v with
  | array vs =>
      cases w with
      | array ws => exact same_values_iff vs ws
      | _ => simp [Value.Matches, Value.same]
  | fragment f =>
      cases w with
      | fragment g => exact fragment_same_iff f g
      | _ => simp [Value.Matches, Value.same]
  | query q =>
      cases w with
      | query r => exact query_same_iff formed
      | _ => simp [Value.Matches, Value.same]
  | _ => simp [Value.Matches, Value.isAtom]

-- A map is compared with a map alone.
theorem matches_formed {R : Comparison} {v w : Value} (compound : v.isAtom = false) (formed : v.Formed)
    (shape : v.Matches R w) : w.isAtom = false ∧ w.Formed := by
  cases v with
  | array vs =>
      cases w with
      | array ws => exact ⟨rfl, trivial⟩
      | _ => cases shape.1
  | fragment f =>
      cases w with
      | fragment g => exact ⟨rfl, trivial⟩
      | _ => cases shape.1
  | query q =>
      cases w with
      | query r =>
          obtain ⟨-, -, -, ⟨aliases, -⟩, -⟩ := shape
          exact ⟨rfl, aliases.nodup_iff.mp formed⟩
      | _ => cases shape.1
  | _ => cases compound

end QueryBuilder

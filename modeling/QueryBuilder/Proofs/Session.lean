import QueryBuilder.Draft.Cursor

/-!
Sessions: any number of drafts, started, changed, edited through cursors, observed, cloned and
exchanged in any order.

Main statement: whatever the session did, compiling a draft answers what a new compilation of its
query answers, at every point where the session did it and where it could do it next.
-/

set_option autoImplicit false

namespace QueryBuilder

namespace Run

-- The state a computation leaves behind, and what it answers, whether it fails or not.
def after {σ α : Type} (run : Run σ α) (s : σ) : σ :=
  match run s with
  | .ok _ t => t
  | .error _ t => t

def answer {σ α : Type} (run : Run σ α) (s : σ) : Except Error α :=
  match run s with
  | .ok a _ => .ok a
  | .error e _ => .error e

end Run

inductive Start where
  | blank (kind : QueryKind)
  | ofTable (kind : QueryKind) (table : String)

def Start.draft : Start → Draft
  | .blank kind => .ofQuery (.empty kind)
  | .ofTable kind table => .ofQuery (.ofTable kind table)

-- A cursor is opened at the root of a tree, or in a new group of it.
inductive Opening where
  | root (slot : Slot)
  | group (slot : Slot) (combinator : Combinator)

def Opening.cursor (d : Draft) : Opening → Cursor
  | .root slot => .atRoot d slot
  | .group slot combinator => .inBranch d slot combinator

-- The text and the parameters are parts of the compiled form; the marker form is no part of it.
inductive Observer where
  | compile
  | text
  | params
  | markerForm

inductive Action where
  | start (s : Start)
  | call (i : Nat) (c : Call)
  | edit (i : Nat) (opening : Opening) (calls : List CursorCall)
  | observe (i : Nat) (o : Observer)
  | markFinal (i : Nat)
  | clone (i : Nat)
  | exchange (i j : Nat)

-- What was asked to compile, and the answer it gave.
structure Observation where
  query : Query
  answer : Except Error Compiled

structure Session where
  drafts : List Draft
  seen : List Observation

namespace Session

def begin (s : Start) : Session :=
  ⟨[s.draft], []⟩

def update (s : Session) (i : Nat) (f : Draft → Draft) : Session :=
  match s.drafts[i]? with
  | none => s
  | some d => ⟨s.drafts.set i (f d), s.seen⟩

-- A cursor gives its draft back when it is dropped. A failing call other than `remove` drops it and
-- is therefore the last one, but nothing below depends on that.
def edited (opening : Opening) (calls : List CursorCall) (d : Draft) : Draft :=
  (calls.foldl (fun k c => Run.after (Cursor.call c) k) (opening.cursor d)).draft?.getD d

-- Compiles a draft, and writes down what it was asked and what it answered.
def compile (s : Session) (i : Nat) : Session :=
  match s.drafts[i]? with
  | none => s
  | some d => ⟨s.drafts.set i (Run.after Draft.compile d), s.seen ++ [⟨d.query, Run.answer Draft.compile d⟩]⟩

def observe (s : Session) (i : Nat) : Observer → Session
  | .markerForm => s
  | .compile | .text | .params => s.compile i

def exchange (s : Session) (i j : Nat) : Session :=
  match s.drafts[i]?, s.drafts[j]? with
  | some d, some e => ⟨(s.drafts.set i e).set j d, s.seen⟩
  | _, _ => s

def step (s : Session) : Action → Session
  | .start start => ⟨s.drafts ++ [start.draft], s.seen⟩
  | .call i c => s.update i (Run.after (Draft.call c))
  | .edit i opening calls => s.update i (edited opening calls)
  | .observe i o => s.observe i o
  | .markFinal i => s.update i Draft.markFinal
  | .clone i => ⟨s.drafts ++ (s.drafts[i]?.map Draft.copy).toList, s.seen⟩
  | .exchange i j => s.exchange i j

def run (s : Session) (actions : List Action) : Session :=
  actions.foldl step s

end Session

-- A remembered form is the one that the query compiles to now.
def Draft.Fresh (d : Draft) : Prop :=
  ∀ c, d.memo = some c → d.query.compile = .ok c

theorem fresh_of_no_memo {d : Draft} (none : d.memo = none) : d.Fresh := by
  intro c remembered
  rw [none] at remembered
  cases remembered

theorem replace_fresh (d : Draft) (q : Query) : (d.replace q).Fresh :=
  fresh_of_no_memo rfl

theorem change_all_fresh (cs : List Change) (d : Draft) (fresh : d.Fresh) :
    (Run.after (Draft.changeAll cs) d).Fresh := by
  induction cs generalizing d with
  | nil => exact fresh
  | cons c cs ih =>
      unfold Run.after Draft.changeAll Draft.change
      cases changed : c d.query with
      | error e => exact fresh
      | ok q => exact ih (d.replace q) (replace_fresh d q)

theorem compile_fresh (d : Draft) (fresh : d.Fresh) : (Run.after Draft.compile d).Fresh := by
  unfold Run.after Draft.compile
  cases remembered : d.memo with
  | some c => exact fresh
  | none =>
      cases compiled : d.query.compile with
      | error e => exact fresh
      | ok c =>
          intro other same
          cases same
          exact compiled

theorem fresh_compile_answer (d : Draft) (fresh : d.Fresh) : Run.answer Draft.compile d = d.query.compile := by
  unfold Run.answer Draft.compile
  cases remembered : d.memo with
  | some c => exact (fresh c remembered).symm
  | none => cases d.query.compile <;> rfl

-- What holds of a draft when it starts, and of whatever a session makes of a draft that it holds of.
structure Draft.Kept (P : Draft → Prop) : Prop where
  start : ∀ s : Start, P s.draft
  call : ∀ (c : Call) (d : Draft), P d → P (Run.after (Draft.call c) d)
  plant : ∀ (d : Draft) (slot : Slot) (tree : Condition), P d → P (d.replace (d.query.putTree slot tree))
  compile : ∀ d : Draft, P d → P (Run.after Draft.compile d)
  markFinal : ∀ d : Draft, P d → P d.markFinal
  copy : ∀ d : Draft, P d → P d.copy

-- A cursor into a draft stays in one, and leaves in it what a tree put in the place of another leaves.
def Anchor.Holds (P : Draft → Prop) (a : Anchor) : Prop :=
  ∃ d slot, a = .attached d slot ∧ P d

theorem after_descend (combinator : Combinator) (k : Cursor) :
    (Run.after (Cursor.descend combinator) k).anchor =
      (Run.after (Cursor.edit fun c => .ok (c.length, c.push (.branch (.empty combinator)))) k).anchor := by
  simp only [Run.after, Cursor.descend]
  cases Cursor.edit (fun c => .ok (c.length, c.push (.branch (.empty combinator)))) k <;> rfl

theorem after_call_descend (combinator : Combinator) (k : Cursor) :
    Run.after (Cursor.call (.descend combinator)) k = Run.after (Cursor.descend combinator) k := by
  simp only [Run.after, Cursor.call]
  cases Cursor.descend combinator k <;> rfl

theorem after_call_parent (k : Cursor) : (Run.after (Cursor.call .parent) k).anchor = k.anchor := by
  simp only [Run.after, Cursor.call, Cursor.parent]
  by_cases atRoot : k.path.isEmpty
  · rw [if_pos atRoot]
  · rw [if_neg atRoot]

theorem after_call_query (k : Cursor) : Run.after (Cursor.call .query) k = k := by
  simp only [Run.after, Cursor.call]
  cases k.draft? <;> rfl

theorem in_branch_after (d : Draft) (slot : Slot) (combinator : Combinator) :
    Cursor.inBranch d slot combinator = Run.after (Cursor.descend combinator) (.atRoot d slot) := by
  simp only [Run.after, Cursor.inBranch]
  cases Cursor.descend combinator (.atRoot d slot) <;> rfl

section Kept

variable {P : Draft → Prop}

theorem put_holds (kept : Draft.Kept P) {a : Anchor} (holds : a.Holds P) (c : Condition) : (a.put c).Holds P := by
  obtain ⟨d, slot, rfl, held⟩ := holds
  exact ⟨_, slot, rfl, kept.plant d slot c held⟩

theorem edit_holds (kept : Draft.Kept P) {α : Type} (f : Condition → Except Error (α × Condition)) (k : Cursor)
    (holds : k.anchor.Holds P) : (Run.after (Cursor.edit f) k).anchor.Holds P := by
  have opened : k.anchor.opened.Holds P := put_holds kept holds _
  simp only [Run.after, Cursor.edit]
  cases k.anchor.opened.root.editAt f k.path with
  | error e => exact opened
  | ok result => exact put_holds kept opened result.2

theorem descend_holds (kept : Draft.Kept P) (combinator : Combinator) (k : Cursor) (holds : k.anchor.Holds P) :
    (Run.after (Cursor.descend combinator) k).anchor.Holds P := by
  rw [after_descend]
  exact edit_holds kept _ k holds

theorem cursor_call_holds (kept : Draft.Kept P) (c : CursorCall) (k : Cursor) (holds : k.anchor.Holds P) :
    (Run.after (Cursor.call c) k).anchor.Holds P := by
  cases c with
  | add cond params => exact edit_holds kept _ k holds
  | set offset cond params => exact edit_holds kept _ k holds
  | remove offset => exact edit_holds kept _ k holds
  | descend combinator =>
      rw [after_call_descend]
      exact descend_holds kept combinator k holds
  | parent =>
      rw [after_call_parent]
      exact holds
  | query =>
      rw [after_call_query]
      exact holds
  | get | exists_ | length | isEmpty | combinator | depth => exact holds

theorem cursor_calls_hold (kept : Draft.Kept P) (calls : List CursorCall) (k : Cursor) (holds : k.anchor.Holds P) :
    (calls.foldl (fun k c => Run.after (Cursor.call c) k) k).anchor.Holds P := by
  induction calls generalizing k with
  | nil => exact holds
  | cons c cs ih => exact ih _ (cursor_call_holds kept c k holds)

theorem opening_holds (kept : Draft.Kept P) (opening : Opening) (d : Draft) (held : P d) :
    (opening.cursor d).anchor.Holds P := by
  have root (slot : Slot) : (Cursor.atRoot d slot).anchor.Holds P :=
    put_holds kept (a := .attached d slot) ⟨d, slot, rfl, held⟩ _
  cases opening with
  | root slot => exact root slot
  | group slot combinator =>
      rw [Opening.cursor, in_branch_after]
      exact descend_holds kept combinator _ (root slot)

theorem edited_keeps (kept : Draft.Kept P) (opening : Opening) (calls : List CursorCall) (d : Draft) (held : P d) :
    P (Session.edited opening calls d) := by
  obtain ⟨left, slot, attached, leftHeld⟩ := cursor_calls_hold kept calls _ (opening_holds kept opening d held)
  simp only [Session.edited, Cursor.draft?, attached]
  exact leftHeld

theorem update_keeps {s : Session} (i : Nat) (f : Draft → Draft) (keeps : ∀ d : Draft, P d → P (f d))
    (all : ∀ d ∈ s.drafts, P d) : ∀ d ∈ (s.update i f).drafts, P d := by
  rw [Session.update]
  cases found : s.drafts[i]? with
  | none => exact all
  | some d =>
      intro e member
      rcases List.mem_or_eq_of_mem_set member with old | rfl
      · exact all e old
      · exact keeps d (all d (List.mem_of_getElem? found))

-- Compiling changes the drafts as any other update does; what it writes down is no part of them.
theorem compile_drafts (s : Session) (i : Nat) : (s.compile i).drafts = (s.update i (Run.after Draft.compile)).drafts := by
  rw [Session.compile, Session.update]
  cases s.drafts[i]? <;> rfl

theorem exchange_keeps {s : Session} (i j : Nat) (all : ∀ d ∈ s.drafts, P d) :
    ∀ d ∈ (s.exchange i j).drafts, P d := by
  rw [Session.exchange]
  split
  · rename_i d e foundD foundE
    intro x member
    rcases List.mem_or_eq_of_mem_set member with first | rfl
    · rcases List.mem_or_eq_of_mem_set first with old | rfl
      · exact all x old
      · exact all x (List.mem_of_getElem? foundE)
    · exact all x (List.mem_of_getElem? foundD)
  · exact all

theorem step_keeps (kept : Draft.Kept P) {s : Session} (a : Action) (all : ∀ d ∈ s.drafts, P d) :
    ∀ d ∈ (s.step a).drafts, P d := by
  cases a with
  | start start =>
      intro d member
      rcases List.mem_append.mp member with old | new
      · exact all d old
      · rw [List.mem_singleton.mp new]
        exact kept.start start
  | call i c => exact update_keeps i _ (kept.call c) all
  | edit i opening calls => exact update_keeps i _ (edited_keeps kept opening calls) all
  | observe i o =>
      cases o with
      | markerForm => exact all
      | compile | text | params =>
          change ∀ d ∈ (s.compile i).drafts, P d
          rw [compile_drafts]
          exact update_keeps i _ kept.compile all
  | markFinal i => exact update_keeps i _ kept.markFinal all
  | clone i =>
      intro d member
      rcases List.mem_append.mp member with old | new
      · exact all d old
      · obtain ⟨original, found, rfl⟩ := Option.map_eq_some_iff.mp (Option.mem_toList.mp new)
        exact kept.copy original (all original (List.mem_of_getElem? found))
  | exchange i j => exact exchange_keeps i j all

theorem run_keeps (kept : Draft.Kept P) (actions : List Action) (s : Session) (all : ∀ d ∈ s.drafts, P d) :
    ∀ d ∈ (s.run actions).drafts, P d := by
  induction actions generalizing s with
  | nil => exact all
  | cons a actions ih => exact ih (s.step a) (step_keeps kept a all)

theorem reachable_keeps (kept : Draft.Kept P) {start : Start} {actions : List Action} {d : Draft}
    (reachable : d ∈ ((Session.begin start).run actions).drafts) : P d := by
  refine run_keeps kept actions (Session.begin start) (fun e member => ?_) d reachable
  rw [List.mem_singleton.mp member]
  exact kept.start start

theorem change_all_keeps {P : Query → Prop} (cs : List Change)
    (each : ∀ c ∈ cs, ∀ q r, P q → c q = .ok r → P r) (d : Draft) (held : P d.query) :
    P (Run.after (Draft.changeAll cs) d).query := by
  induction cs generalizing d with
  | nil => exact held
  | cons c cs ih =>
      simp only [Run.after, Draft.changeAll, Draft.change]
      cases changed : c d.query with
      | error e => exact held
      | ok q => exact ih (fun c member => each c (by simp [member])) (d.replace q) (each c (by simp) _ q held changed)

theorem compile_query (d : Draft) : (Run.after Draft.compile d).query = d.query := by
  simp only [Run.after, Draft.compile]
  cases d.memo with
  | some c => rfl
  | none => cases d.query.compile <;> rfl

-- What is told of the query alone.
theorem query_kept {P : Query → Prop} (start : ∀ s : Start, P s.draft.query)
    (change : ∀ (call : Call), ∀ c ∈ call.changes, ∀ q r, P q → c q = .ok r → P r)
    (plant : ∀ q slot tree, P q → P (Query.putTree q slot tree)) : Draft.Kept fun d => P d.query where
  start := start
  call c := change_all_keeps c.changes (change c)
  plant d slot tree := plant d.query slot tree
  compile d held := by rwa [compile_query]
  markFinal _ held := held
  copy _ held := held

end Kept

theorem start_fresh (s : Start) : s.draft.Fresh := by
  cases s <;> exact fresh_of_no_memo rfl

theorem fresh_kept : Draft.Kept Draft.Fresh where
  start := start_fresh
  call c := change_all_fresh c.changes
  plant d slot tree _ := replace_fresh d (d.query.putTree slot tree)
  compile := compile_fresh
  markFinal _ fresh := fresh
  copy _ _ := fresh_of_no_memo rfl

-- What a session keeps: nothing remembered is stale, and nothing that was answered had been.
structure Session.Sound (s : Session) : Prop where
  fresh : ∀ d ∈ s.drafts, d.Fresh
  seen : ∀ o ∈ s.seen, o.answer = o.query.compile

theorem update_seen (s : Session) (i : Nat) (f : Draft → Draft) : (s.update i f).seen = s.seen := by
  rw [Session.update]
  cases s.drafts[i]? <;> rfl

theorem exchange_seen (s : Session) (i j : Nat) : (s.exchange i j).seen = s.seen := by
  rw [Session.exchange]
  split <;> rfl

theorem compile_seen {s : Session} (i : Nat) (sound : s.Sound) :
    ∀ o ∈ (s.compile i).seen, o.answer = o.query.compile := by
  rw [Session.compile]
  cases found : s.drafts[i]? with
  | none => exact sound.seen
  | some d =>
      intro o member
      rcases List.mem_append.mp member with old | new
      · exact sound.seen o old
      · rw [List.mem_singleton.mp new]
        exact fresh_compile_answer d (sound.fresh d (List.mem_of_getElem? found))

theorem step_seen {s : Session} (a : Action) (sound : s.Sound) :
    ∀ o ∈ (s.step a).seen, o.answer = o.query.compile := by
  cases a with
  | observe i o =>
      cases o with
      | markerForm => exact sound.seen
      | compile | text | params => exact compile_seen i sound
  | call i c =>
      rw [Session.step, update_seen]
      exact sound.seen
  | edit i opening calls =>
      rw [Session.step, update_seen]
      exact sound.seen
  | markFinal i =>
      rw [Session.step, update_seen]
      exact sound.seen
  | exchange i j =>
      rw [Session.step, exchange_seen]
      exact sound.seen
  | start | clone => exact sound.seen

theorem step_sound {s : Session} (a : Action) (sound : s.Sound) : (s.step a).Sound :=
  ⟨step_keeps fresh_kept a sound.fresh, step_seen a sound⟩

theorem run_sound (actions : List Action) (s : Session) (sound : s.Sound) : (s.run actions).Sound := by
  induction actions generalizing s with
  | nil => exact sound
  | cons a actions ih => exact ih (s.step a) (step_sound a sound)

theorem reachable_fresh {start : Start} {actions : List Action} {d : Draft}
    (reachable : d ∈ ((Session.begin start).run actions).drafts) : d.Fresh :=
  reachable_keeps fresh_kept reachable

theorem compiled_form_never_stale (start : Start) (actions : List Action) :
    (∀ o ∈ ((Session.begin start).run actions).seen, o.answer = o.query.compile) ∧
      ∀ d ∈ ((Session.begin start).run actions).drafts, Run.answer Draft.compile d = d.query.compile := by
  have initial : (Session.begin start).Sound := by
    refine ⟨fun d member => ?_, fun o member => by cases member⟩
    rw [List.mem_singleton.mp member]
    exact start_fresh start
  have sound := run_sound actions (Session.begin start) initial
  exact ⟨sound.seen, fun d member => fresh_compile_answer d (sound.fresh d member)⟩

end QueryBuilder

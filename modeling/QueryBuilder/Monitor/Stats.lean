import QueryBuilder.Monitor.Event

/-!
Statistics over the events of a monitor. Counters and the total time are 64-bit words that wrap; a
single time is cut to the largest word.
-/

set_option autoImplicit false

namespace QueryBuilder

structure Stats where
  total : UInt64
  failed : UInt64
  timedOut : UInt64
  slow : UInt64
  totalNanos : UInt64
  maxNanos : UInt64
  slowest : Option String
  selects : UInt64
  inserts : UInt64
  updates : UInt64
  deletes : UInt64
deriving DecidableEq, Repr

namespace Stats

def empty : Stats where
  total := 0
  failed := 0
  timedOut := 0
  slow := 0
  totalNanos := 0
  maxNanos := 0
  slowest := none
  selects := 0
  inserts := 0
  updates := 0
  deletes := 0

-- A time as a word of nanoseconds, the largest one if it is longer.
def word (d : Duration) : UInt64 :=
  UInt64.ofNat (min d.nanos (Nat.pow 2 64 - 1))

def one (b : Bool) : UInt64 :=
  if b then 1 else 0

def isTimeout : Outcome → Bool
  | .timedOut _ => true
  | _ => false

def complete (s : Stats) (context : StatementContext) (took : Duration) (outcome : Outcome) : Stats :=
  let nanos := word took
  { s with
    total := s.total + 1
    failed := s.failed + one outcome.isError
    timedOut := s.timedOut + one (isTimeout outcome)
    totalNanos := s.totalNanos + nanos
    maxNanos := max s.maxNanos nanos
    slowest := if s.maxNanos < nanos then some context.sql else s.slowest
    selects := s.selects + one (context.kind = .select)
    inserts := s.inserts + one (context.kind = .insert)
    updates := s.updates + one (context.kind = .update)
    deletes := s.deletes + one (context.kind = .delete) }

def observe (s : Stats) : Event → Stats
  | .start _ => s
  | .complete context took outcome => s.complete context took outcome
  | .slow _ _ => { s with slow := s.slow + 1 }

def ofEvents (events : List Event) : Stats :=
  events.foldl observe empty

-- What a statistics monitor takes in: an event to count, or the wish to start anew.
inductive Entry where
  | event (e : Event)
  | reset
deriving DecidableEq, Repr

def record (s : Stats) : Entry → Stats
  | .event e => s.observe e
  | .reset => empty

def ofEntries (entries : List Entry) : Stats :=
  entries.foldl record empty

def totalTime (s : Stats) : Duration :=
  ⟨s.totalNanos.toNat⟩

def maxTime (s : Stats) : Duration :=
  ⟨s.maxNanos.toNat⟩

end Stats

end QueryBuilder

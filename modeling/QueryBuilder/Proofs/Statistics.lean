import Mathlib.Data.List.Induction
import QueryBuilder.Monitor.Stats

/-!
Statistics as a function of what was told.

Main statement: a statistics monitor shows the events behind its last reset and nothing of those
before it. Each counter is the number of the events it is for, wrapping as words do; the longest time
is that of the longest call, and the slowest text is that of the first call that took so long.
-/

set_option autoImplicit false

namespace QueryBuilder

structure Completion where
  context : StatementContext
  took : Duration
  outcome : Outcome

namespace Event

def completion? : Event → Option Completion
  | .complete context took outcome => some ⟨context, took, outcome⟩
  | _ => none

def isSlow : Event → Bool
  | .slow .. => true
  | _ => false

end Event

namespace Completion

-- A time that no word can hold counts as the largest word.
def nanos (c : Completion) : Nat :=
  min c.took.nanos (UInt64.size - 1)

def ranLate (c : Completion) : Bool :=
  match c.outcome with
  | .timedOut _ => true
  | _ => false

def failed (c : Completion) : Bool :=
  match c.outcome with
  | .timedOut _ | .error _ => true
  | _ => false

def ofKind (kind : StatementKind) (c : Completion) : Bool :=
  c.context.kind = kind

end Completion

def completions (events : List Event) : List Completion :=
  events.filterMap Event.completion?

def timeSpent : List Completion → Nat
  | [] => 0
  | c :: cs => c.nanos + timeSpent cs

def longest : List Completion → Nat
  | [] => 0
  | c :: cs => max c.nanos (longest cs)

-- The text of the first call that no other one exceeds; none when no time was spent.
def slowestText (calls : List Completion) : Option String :=
  if longest calls = 0 then none
  else (calls.find? fun c => c.nanos = longest calls).map fun c => c.context.sql

def remember (events : List Event) : Stats.Entry → List Event
  | .event e => events ++ [e]
  | .reset => []

-- The events behind the last reset.
def sinceReset (entries : List Stats.Entry) : List Event :=
  entries.foldl remember []

def slowEvents (events : List Event) : Nat :=
  events.countP Event.isSlow

-- What a monitor shows after these calls, when it was told of so many slow ones.
structure Stats.Shows (s : Stats) (calls : List Completion) (slow : Nat) : Prop where
  total : s.total.toNat = calls.length % UInt64.size
  failed : s.failed.toNat = calls.countP Completion.failed % UInt64.size
  timedOut : s.timedOut.toNat = calls.countP Completion.ranLate % UInt64.size
  slow : s.slow.toNat = slow % UInt64.size
  selects : s.selects.toNat = calls.countP (Completion.ofKind .select) % UInt64.size
  inserts : s.inserts.toNat = calls.countP (Completion.ofKind .insert) % UInt64.size
  updates : s.updates.toNat = calls.countP (Completion.ofKind .update) % UInt64.size
  deletes : s.deletes.toNat = calls.countP (Completion.ofKind .delete) % UInt64.size
  totalTime : s.totalTime.nanos = timeSpent calls % UInt64.size
  maxTime : s.maxTime.nanos = longest calls
  slowest : s.slowest = slowestText calls

theorem nanos_is_word (c : Completion) : (Stats.word c.took).toNat = c.nanos := by
  rw [Stats.word, UInt64.toNat_ofNat']
  exact Nat.mod_eq_of_lt (Nat.lt_of_le_of_lt (Nat.min_le_right _ _) (by decide))

theorem word_max (a b : UInt64) : (max a b).toNat = max a.toNat b.toNat := by
  change (if a ≤ b then b else a).toNat = _
  by_cases ordered : a ≤ b
  · rw [if_pos ordered]
    exact (Nat.max_eq_right (UInt64.le_iff_toNat_le.mp ordered)).symm
  · rw [if_neg ordered]
    exact (Nat.max_eq_left (Nat.le_of_not_le fun le => ordered (UInt64.le_iff_toNat_le.mpr le))).symm

theorem ran_late_of_timeout (c : Completion) : Stats.isTimeout c.outcome = c.ranLate := by
  obtain ⟨context, took, outcome⟩ := c
  cases outcome <;> rfl

theorem failed_of_error (c : Completion) : c.outcome.isError = c.failed := by
  obtain ⟨context, took, outcome⟩ := c
  cases outcome <;> rfl

-- A word that is added to another one adds to what it counts.
theorem word_counts_on {w v : UInt64} {n m : Nat} (counts : w.toNat = n % UInt64.size) (more : v.toNat = m) :
    (w + v).toNat = (n + m) % UInt64.size := by
  rw [UInt64.toNat_add, counts, more]
  exact Nat.mod_add_mod n UInt64.size m

theorem one_counts {α : Type} (p : α → Bool) (a : α) : (Stats.one (p a)).toNat = [a].countP p := by
  cases held : p a <;> simp [Stats.one, held]

theorem time_spent_append (calls : List Completion) (c : Completion) :
    timeSpent (calls ++ [c]) = timeSpent calls + c.nanos := by
  induction calls with
  | nil => simp [timeSpent]
  | cons d rest ih => simp only [List.cons_append, timeSpent, ih, Nat.add_assoc]

theorem longest_append (calls : List Completion) (c : Completion) :
    longest (calls ++ [c]) = max (longest calls) c.nanos := by
  induction calls with
  | nil => simp [longest]
  | cons d rest ih => simp only [List.cons_append, longest, ih, Nat.max_assoc]

theorem le_longest {calls : List Completion} {c : Completion} (member : c ∈ calls) : c.nanos ≤ longest calls := by
  induction calls with
  | nil => cases member
  | cons d rest ih =>
      rcases List.mem_cons.mp member with rfl | later
      · exact Nat.le_max_left _ _
      · exact Nat.le_trans (ih later) (Nat.le_max_right _ _)

theorem longest_taken {calls : List Completion} (some : longest calls ≠ 0) :
    ∃ c ∈ calls, c.nanos = longest calls := by
  induction calls with
  | nil => exact absurd rfl some
  | cons d rest ih =>
      rcases Nat.le_total d.nanos (longest rest) with shorter | longer
      · have same : longest (d :: rest) = longest rest := Nat.max_eq_right shorter
        obtain ⟨c, member, long⟩ := ih (same ▸ some)
        exact ⟨c, List.mem_cons_of_mem _ member, long.trans same.symm⟩
      · exact ⟨d, List.mem_cons_self, (Nat.max_eq_left longer).symm⟩

-- Only a call that is longer than all before it takes the place of the slowest.
theorem slowest_append (calls : List Completion) (c : Completion) :
    slowestText (calls ++ [c]) = if longest calls < c.nanos then some c.context.sql else slowestText calls := by
  by_cases longer : longest calls < c.nanos
  · have whole : longest (calls ++ [c]) = c.nanos := by
      rw [longest_append, Nat.max_eq_right (Nat.le_of_lt longer)]
    have before : calls.find? (fun d => d.nanos = c.nanos) = none := by
      refine List.find?_eq_none.mpr fun d member same => ?_
      have bound := le_longest member
      have equal : d.nanos = c.nanos := by simpa using same
      omega
    rw [if_pos longer, slowestText, whole, if_neg (by omega), List.find?_append, before]
    simp
  · have whole : longest (calls ++ [c]) = longest calls := by
      rw [longest_append, Nat.max_eq_left (Nat.le_of_not_lt longer)]
    rw [if_neg longer, slowestText, slowestText, whole]
    by_cases none : longest calls = 0
    · rw [if_pos none, if_pos none]
    · obtain ⟨d, member, long⟩ := longest_taken none
      have found : (calls.find? fun d => d.nanos = longest calls).isSome :=
        List.find?_isSome.mpr ⟨d, member, by simpa using long⟩
      obtain ⟨first, known⟩ := Option.isSome_iff_exists.mp found
      rw [if_neg none, if_neg none, List.find?_append, known]
      rfl

theorem completions_append (events : List Event) (e : Event) :
    completions (events ++ [e]) = completions events ++ e.completion?.toList := by
  rw [completions, List.filterMap_append]
  cases e <;> rfl

theorem complete_shows {s : Stats} {calls : List Completion} {slow : Nat} (shows : s.Shows calls slow) (c : Completion) :
    (s.complete c.context c.took c.outcome).Shows (calls ++ [c]) slow := by
  have counted (p : Completion → Bool) {w : UInt64} (counts : w.toNat = calls.countP p % UInt64.size) :
      (w + Stats.one (p c)).toNat = (calls ++ [c]).countP p % UInt64.size := by
    rw [List.countP_append]
    exact word_counts_on counts (one_counts p c)
  have longer : s.maxNanos < Stats.word c.took ↔ longest calls < c.nanos := by
    rw [UInt64.lt_iff_toNat_lt, nanos_is_word, ← shows.maxTime]
    rfl
  rw [Stats.complete, failed_of_error, ran_late_of_timeout]
  constructor
  · rw [List.length_append]
    exact word_counts_on shows.total rfl
  · exact counted Completion.failed shows.failed
  · exact counted Completion.ranLate shows.timedOut
  · exact shows.slow
  · exact counted (Completion.ofKind .select) shows.selects
  · exact counted (Completion.ofKind .insert) shows.inserts
  · exact counted (Completion.ofKind .update) shows.updates
  · exact counted (Completion.ofKind .delete) shows.deletes
  · rw [time_spent_append]
    exact word_counts_on shows.totalTime (nanos_is_word c)
  · rw [longest_append, ← shows.maxTime, ← nanos_is_word]
    exact word_max s.maxNanos (Stats.word c.took)
  · rw [slowest_append, ← shows.slowest]
    simp only [longer]

theorem observe_shows {s : Stats} {events : List Event} (shows : s.Shows (completions events) (slowEvents events))
    (e : Event) : (s.observe e).Shows (completions (events ++ [e])) (slowEvents (events ++ [e])) := by
  rw [completions_append, slowEvents, List.countP_append]
  cases e with
  | start context => simpa [Event.completion?, Event.isSlow, Stats.observe, slowEvents] using shows
  | complete context took outcome => exact complete_shows shows ⟨context, took, outcome⟩
  | slow context took =>
      simp only [Event.completion?, Option.toList_none, List.append_nil]
      exact { shows with slow := word_counts_on shows.slow rfl }

theorem empty_shows : Stats.empty.Shows [] 0 := by
  constructor <;> rfl

theorem events_shown (events : List Event) :
    (Stats.ofEvents events).Shows (completions events) (slowEvents events) := by
  induction events using List.reverseRecOn with
  | nil => exact empty_shows
  | append_singleton events e ih =>
      rw [Stats.ofEvents, List.foldl_append]
      exact observe_shows ih e

theorem entries_since_reset (entries : List Stats.Entry) :
    Stats.ofEntries entries = Stats.ofEvents (sinceReset entries) := by
  induction entries using List.reverseRecOn with
  | nil => rfl
  | append_singleton entries entry ih =>
      rw [Stats.ofEntries, List.foldl_append, sinceReset, List.foldl_append]
      cases entry with
      | event e =>
          have counted : Stats.ofEvents (sinceReset entries ++ [e]) = (Stats.ofEvents (sinceReset entries)).observe e :=
            List.foldl_append
          exact (congrArg (Stats.observe · e) ih).trans counted.symm
      | reset => rfl

theorem one_kind (kind : StatementKind) :
    (if kind = .select then 1 else 0) + (if kind = .insert then 1 else 0) + (if kind = .update then 1 else 0)
      + (if kind = .delete then 1 else 0) ≤ 1 := by
  cases kind <;> decide

theorem kinds_apart (calls : List Completion) :
    calls.countP (Completion.ofKind .select) + calls.countP (Completion.ofKind .insert)
      + calls.countP (Completion.ofKind .update) + calls.countP (Completion.ofKind .delete) ≤ calls.length := by
  induction calls with
  | nil => exact Nat.le_refl 0
  | cons c rest ih =>
      have one := one_kind c.context.kind
      simp only [List.countP_cons, List.length_cons, Completion.ofKind, decide_eq_true_eq] at ih ⊢
      omega

-- The counter of all calls is the first to wrap.
theorem kinds_below_total {s : Stats} {calls : List Completion} {slow : Nat} (shows : s.Shows calls slow)
    (fits : calls.length < UInt64.size) :
    s.selects.toNat + s.inserts.toNat + s.updates.toNat + s.deletes.toNat ≤ s.total.toNat := by
  have apart := kinds_apart calls
  have selects := Nat.mod_le (calls.countP (Completion.ofKind .select)) UInt64.size
  have inserts := Nat.mod_le (calls.countP (Completion.ofKind .insert)) UInt64.size
  have updates := Nat.mod_le (calls.countP (Completion.ofKind .update)) UInt64.size
  have deletes := Nat.mod_le (calls.countP (Completion.ofKind .delete)) UInt64.size
  rw [shows.selects, shows.inserts, shows.updates, shows.deletes, shows.total, Nat.mod_eq_of_lt fits]
  omega

theorem statistics_show_history (before entries : List Stats.Entry) :
    let s := Stats.ofEntries entries
    let calls := completions (sinceReset entries)
    s.Shows calls (slowEvents (sinceReset entries)) ∧
    Stats.ofEntries (before ++ .reset :: entries) = s ∧
    (calls.length < UInt64.size →
      s.selects.toNat + s.inserts.toNat + s.updates.toNat + s.deletes.toNat ≤ s.total.toNat) := by
  intro s calls
  have shows : s.Shows calls (slowEvents (sinceReset entries)) := by
    rw [show s = Stats.ofEvents (sinceReset entries) from entries_since_reset entries]
    exact events_shown (sinceReset entries)
  refine ⟨shows, ?_, kinds_below_total shows⟩
  rw [Stats.ofEntries, List.foldl_append]
  rfl

-- The third call takes as long as the second, and the first is forgotten.
example :
    (Stats.ofEntries [.event (.complete (.ofSql "a" 0) ⟨9⟩ (.rows 1)), .reset,
      .event (.complete (.ofSql "b" 0) ⟨7⟩ (.rows 0)), .event (.complete (.ofSql "c" 0) ⟨7⟩ (.rows 2))]).slowest =
    some "b" := by
  rfl

end QueryBuilder

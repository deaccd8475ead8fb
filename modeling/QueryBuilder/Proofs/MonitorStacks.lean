import Mathlib.Data.List.Forall2
import QueryBuilder.Proofs.Monitoring

/-!
Monitored clients around monitored clients.

Main statement: a call of the outermost client is reported to each of the monitors. The outermost one
is told the tag of the caller; all the others are told none, since a monitored client calls the one
under it without a tag, and it makes no difference whether it owns or borrows it.
-/

set_option autoImplicit false

namespace QueryBuilder

-- A monitored client of a stack: what it is set to, and whether it borrows the client under it.
structure Layer where
  config : MonitorConfig
  borrows : Bool

-- The state under a stack, the outermost layer first.
def Stacked (σ : Type) : List Layer → Type
  | [] => σ
  | _ :: inner => Monitored (Stacked σ inner)

inductive Event.Ends (context : StatementContext) : Event → Prop
  | complete (took : Duration) (outcome : Outcome) : Event.Ends context (.complete context took outcome)
  | slow (took : Duration) : Event.Ends context (.slow context took)

-- A monitor is told that a statement starts, and then of nothing else than how it ends.
def Reported (context : StatementContext) (before after : List Event) : Prop :=
  ∃ rest, after = before ++ .start context :: rest ∧ ∀ e ∈ rest, e.Ends context

namespace Stacked

variable {σ : Type}

@[reducible]
def timed [base : Timed σ] : (layers : List Layer) → Timed (Stacked σ layers)
  | [] => base
  | _ :: inner =>
      let _ := timed inner
      inferInstanceAs (Timed (Monitored (Stacked σ inner)))

instance [Timed σ] {layers : List Layer} : Timed (Stacked σ layers) :=
  timed layers

-- The events of each monitor.
def events : (layers : List Layer) → Stacked σ layers → List (List Event)
  | [], _ => []
  | _ :: inner, s => Monitored.events s :: events inner (Monitored.inner s)

theorem events_set_clocks [Timed σ] (layers : List Layer) (c : Clocks) (s : Stacked σ layers) :
    events layers (Timed.setClocks c s) = events layers s := by
  induction layers with
  | nil => rfl
  | cons layer inner ih => exact congrArg (Monitored.events s :: ·) (ih (Monitored.inner s))

end Stacked

def Layer.held {σ : Type} (layer : Layer) (client : Client σ) : Client σ :=
  if layer.borrows then client.borrowed else client

def Client.stacked {σ : Type} [Timed σ] (client : Client σ) : (layers : List Layer) → Client (Stacked σ layers)
  | [] => client
  | layer :: inner => (layer.held (client.stacked inner)).monitored layer.config

theorem finish_ends (config : MonitorConfig) (context : StatementContext) (took : Duration) (outcome : Outcome) :
    ∀ e ∈ Monitor.finish config context took outcome, e.Ends context := by
  rw [(List.cons.inj (finish_events context took outcome)).2]
  intro e member
  rcases List.mem_cons.mp member with rfl | slow
  · exact .complete took outcome
  · split at slow
    · cases List.mem_singleton.mp slow
      exact .slow took
    · cases slow

-- A monitor that is dropped with its call is told no end at all.
theorem ended_reported {σ : Type} [Timed σ] (config : MonitorConfig) (context : StatementContext) (s : Monitored σ)
    (after : σ) (outcome : Outcome) :
    Reported context s.events (Monitor.ended config context (s.tell (.start context)) after outcome).events := by
  rw [ended_told]
  by_cases dropped : Monitor.isDropped s.inner after
  · rw [if_pos dropped]
    exact ⟨[], rfl, nofun⟩
  · rw [if_neg dropped]
    exact ⟨_, rfl, finish_ends config context _ outcome⟩

section Step

variable {σ α β : Type} [Timed σ] (view : σ → β) (still : ∀ c s, view (Timed.setClocks c s) = view s)

include still

-- A run is made once, under a limit or not, and the clocks are all that a limit changes.
theorem within_view (limit : Option Duration) (run : Run σ α) (s : σ) :
    ∃ t, view t = view s ∧ view (Run.after (Monitor.within limit run) s) = view (Run.after run t) := by
  cases limit with
  | none => exact ⟨s, rfl, rfl⟩
  | some limit =>
      refine ⟨_, still ((Timed.clocks s).limited limit) s, ?_⟩
      simp only [Run.after, Monitor.within]
      cases run (Timed.setClocks ((Timed.clocks s).limited limit) s) with
      | ok a after =>
          by_cases late : (Timed.clocks after).hasGivenUp
          · simp only [if_pos late, still]
          · simp only [if_neg late, still]
      | error e after => simp only [still]

theorem observed_view (config : MonitorConfig) (context : StatementContext) (outcome : α → Outcome) (run : Run σ α)
    (s : Monitored σ) :
    ∃ t, view t = view s.inner ∧
      view (Run.after (Monitor.observe config context outcome run) s).inner = view (Run.after run t) ∧
      Reported context s.events (Run.after (Monitor.observe config context outcome run) s).events := by
  obtain ⟨t, same, once⟩ := within_view view still config.timeout run s.inner
  have begun : (s.tell (.start context)).inner = s.inner := rfl
  refine ⟨t, same, ?_, ?_⟩
  · rw [← once]
    simp only [Run.after, Monitor.observe, begun]
    cases Monitor.within config.timeout run s.inner <;> simp only [ended_told]
  · simp only [Run.after, Monitor.observe, begun]
    cases Monitor.within config.timeout run s.inner <;> exact ended_reported config context s _ _

-- One layer: its monitor is told of the call as the caller made it, and the client under it is called once.
theorem layer_view (layer : Layer) (client : Client σ) (c : ClientCall) (s : Monitored σ) :
    let after := Run.after (c.run ((layer.held client).monitored layer.config)) s
    ∃ t, view t = view s.inner ∧ view after.inner = view (Run.after (c.passed.run client) t) ∧
      Reported (.ofCall c.tag c.sql c.params.length) s.events after.events := by
  obtain ⟨config, borrows⟩ := layer
  obtain ⟨method, tag, sql, params⟩ := c
  cases borrows <;> cases method <;>
    simp only [ClientCall.run, ClientCall.passed, ClientCall.untagged, Client.monitored, Monitor.call, after_and_then] <;>
    exact observed_view view still _ _ _ _ s

end Step

section Stack

variable {σ : Type} [Timed σ] (client : Client σ)

-- Each monitor is told of the statement once, with the tag that is listed for it.
def Client.Reports (layers : List Layer) (c : ClientCall) (s : Stacked σ layers) (tags : List (Option String)) : Prop :=
  List.Forall₂ (fun tag told => Reported (.ofCall tag c.sql c.params.length) told.1 told.2) tags
    ((Stacked.events layers s).zip (Stacked.events layers (Run.after (c.run (client.stacked layers)) s)))

theorem passed_statement (c : ClientCall) :
    c.passed.tag = none ∧ c.passed.sql = c.sql ∧ c.passed.params = c.params := by
  obtain ⟨method, tag, sql, params⟩ := c
  cases method <;> exact ⟨rfl, rfl, rfl⟩

-- The outermost monitor is told what the caller said, the others what the call without a tag tells them.
theorem layer_reports (layer : Layer) {inner : List Layer} {c : ClientCall} {tags : List (Option String)}
    (behind : ∀ t, client.Reports inner c.passed t tags) (s : Stacked σ (layer :: inner)) :
    client.Reports (layer :: inner) c s (c.tag :: tags) := by
  obtain ⟨t, same, once, reported⟩ := layer_view (Stacked.events inner) (Stacked.events_set_clocks inner) layer
    (client.stacked inner) c s
  obtain ⟨-, sql, params⟩ := passed_statement c
  have others := behind t
  rw [Client.Reports, same, ← once, sql, params] at others
  exact .cons reported others

theorem untagged_reports (layers : List Layer) (c : ClientCall) (untagged : c.tag = none) (s : Stacked σ layers) :
    client.Reports layers c s (List.replicate layers.length none) := by
  induction layers generalizing c with
  | nil => exact .nil
  | cons layer inner ih =>
      have all := layer_reports client layer (ih c.passed (passed_statement c).1) s
      rwa [untagged] at all

end Stack

theorem only_outermost_monitor_tagged {σ : Type} [Timed σ] (client : Client σ) (outermost : Layer) (inner : List Layer)
    (c : ClientCall) (s : Stacked σ (outermost :: inner)) :
    client.Reports (outermost :: inner) c s (c.tag :: List.replicate inner.length none) := by
  have others := untagged_reports client inner c.passed (passed_statement c).1
  exact layer_reports client outermost others s

-- A client under observation that is put under observation once more.
def twice : List Layer :=
  [⟨.standard, true⟩, ⟨.standard, false⟩]

def twiceState : Stacked ScriptedServer twice :=
  ⟨⟨.ofScript [⟨.ok ⟨[], 3, none⟩, [], ⟨0⟩⟩] [], []⟩, []⟩

def purgeCall : ClientCall :=
  ⟨.execute, some "purge", "DELETE FROM t", []⟩

-- What the monitor under the outermost one is told.
def innerEvents : List Event :=
  let context := StatementContext.ofCall none "DELETE FROM t" 0
  [.start context, .complete context ⟨10000⟩ (.affected 3)]

theorem tag_stops_at_first_monitor :
    ¬ ∀ (layers : List Layer) (c : ClientCall) (s : Stacked ScriptedServer layers),
      ScriptedServer.link.client.toClient.Reports layers c s (List.replicate layers.length c.tag) := by
  intro everywhere
  let client := ScriptedServer.link.client.toClient.stacked twice
  have told : (Stacked.events twice (Run.after (purgeCall.run client) twiceState))[1]? = some innerEvents := by
    decide +kernel
  obtain _ | ⟨-, _ | ⟨⟨rest, reported, -⟩, -⟩⟩ := everywhere twice purgeCall twiceState
  cases reported.symm.trans (Option.some.inj told)

end QueryBuilder

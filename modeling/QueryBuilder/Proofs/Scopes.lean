import QueryBuilder.Proofs.Session
import QueryBuilder.ScriptedServer
import QueryBuilder.Transaction

/-!
Blocks in transactions and savepoints, nested to any depth.

Main statement: whatever the server answers, each scope that was opened is closed by one command, the
innermost first: it is kept when its body succeeded and undone when it failed. A block gives the value
of its body if the work was kept, the error of its body if the work was undone, and an error with both
texts if it could not be undone; a scope that cannot be opened or kept ends the function around the
block with the error of the server.
-/

set_option autoImplicit false

namespace QueryBuilder

open Transaction (Enclosure)

-- The kinds of blocks. Only a savepoint can be without a name.
inductive Scope where
  | transaction
  | inner (name : String)
  | savepoint (name : Option String)

-- What a function does on a connection. Each part goes on with any choice by what came back; `call` is another
-- function, whose error ends only that function.
inductive Work (V : Type) where
  | finish (outcome : Except Error V)
  | send (sql : String) (params : List Value) (next : Except DriverError Reply → Work V)
  | call (body : Work V) (next : Except Error V → Work V)
  | block (scope : Scope) (body : Work V) (next : Except Error V → Work V)

section Running

variable {σ V : Type} (link : Link σ)

def Scope.block {α : Type} (body : Run (Numbered σ) α) : Scope → Run (Numbered σ) (Except Error α)
  | .transaction => Transaction.block link.numbered body
  | .inner name => Transaction.innerBlock link.numbered name body
  | .savepoint name => link.savepointBlock name body

def Work.run : Work V → Run (Numbered σ) V
  | .finish (.ok v) => fun s => .ok v s
  | .finish (.error e) => fun s => .error e s
  | .send sql params next => fun s =>
      match link.numbered.send sql params s with
      | .ok reply s => (next (.ok reply)).run s
      | .error d s => (next (.error d)).run s
  | .call body next => fun s =>
      match body.run s with
      | .ok v s => (next (.ok v)).run s
      | .error e s => (next (.error e)).run s
  | .block scope body next => fun s =>
      match scope.block link body.run s with
      | .ok outcome s => (next outcome).run s
      | .error e s => .error e s

end Running

-- A command that was sent, and the error it was refused with if it was.
structure Command where
  text : String
  refusal : Option DriverError
deriving DecidableEq

-- What stands behind a connection, and every command so far.
structure Logged (σ : Type) where
  behind : σ
  log : List Command

def Link.logged {σ : Type} (link : Link σ) : Link (Logged σ) where
  send sql params := Run.zoom Logged.behind (fun s behind => ⟨behind, s.log⟩) (link.send sql params)
  command text := fun s =>
    match link.command text s.behind with
    | .ok () behind => .ok () ⟨behind, s.log ++ [⟨text, none⟩]⟩
    | .error d behind => .error d ⟨behind, s.log ++ [⟨text, some d⟩]⟩

-- The commands of a scope, and what is said when they fail to undo its work; one without a name may go by any number.
inductive Scope.Has : Scope → Enclosure → Prop
  | transaction : Scope.Has .transaction ⟨"START TRANSACTION", "COMMIT", "ROLLBACK", "rollback failed"⟩
  | inner (name : String) :
      Scope.Has (.inner name) ⟨"SAVEPOINT " ++ name, "RELEASE " ++ name, "ROLLBACK TO " ++ name, "rollback failed"⟩
  | named (name : String) :
      Scope.Has (.savepoint (some name))
        ⟨"SAVEPOINT " ++ name, "RELEASE " ++ name, "ROLLBACK TO " ++ name, "savepoint rollback failed"⟩
  | numbered {b : Enclosure} (n : Nat) : Scope.Has (.savepoint (some (Savepoint.numberedName n))) b →
      Scope.Has (.savepoint none) b

-- What is still sent for a scope that did not open.
inductive Scope.Aftermath : Scope → List Command → Prop
  | transaction (refusal : Option DriverError) : Scope.Aftermath .transaction [⟨"ROLLBACK", refusal⟩]
  | inner (name : String) : Scope.Aftermath (.inner name) []
  | savepoint (name : Option String) : Scope.Aftermath (.savepoint name) []

-- Every scope that opened is closed behind all that was opened in it.
inductive Bracketed : List Command → Prop
  | nil : Bracketed []
  | refused {scope : Scope} {b : Enclosure} (d : DriverError) {more rest : List Command} : scope.Has b →
      scope.Aftermath more → Bracketed rest → Bracketed (⟨b.opener, some d⟩ :: more ++ rest)
  | closed {scope : Scope} {b : Enclosure} {closer : String} (refusal : Option DriverError) {inside rest : List Command} :
      scope.Has b → closer = b.keeper ∨ closer = b.undoer → Bracketed inside → Bracketed rest →
      Bracketed (⟨b.opener, none⟩ :: inside ++ ⟨closer, refusal⟩ :: rest)

-- The commands that a function may send, and what it then comes to: one case for each way a block can go.
inductive Story {V : Type} : Work V → List Command → Except Error V → Prop
  | finish (outcome : Except Error V) : Story (.finish outcome) [] outcome
  | send {sql : String} {params : List Value} {next : Except DriverError Reply → Work V} {log : List Command}
      {outcome : Except Error V} (reply : Except DriverError Reply) : Story (next reply) log outcome →
      Story (.send sql params next) log outcome
  | call {body : Work V} {next : Except Error V → Work V} {inside rest : List Command} {returned outcome : Except Error V} :
      Story body inside returned → Story (next returned) rest outcome → Story (.call body next) (inside ++ rest) outcome
  | refused {scope : Scope} {b : Enclosure} {body : Work V} {next : Except Error V → Work V} {more : List Command}
      (d : DriverError) : scope.Has b → scope.Aftermath more →
      Story (.block scope body next) (⟨b.opener, some d⟩ :: more) (.error d.toError)
  | kept {scope : Scope} {b : Enclosure} {body : Work V} {next : Except Error V → Work V} {inside rest : List Command}
      {v : V} {outcome : Except Error V} : scope.Has b → Story body inside (.ok v) → Story (next (.ok v)) rest outcome →
      Story (.block scope body next) (⟨b.opener, none⟩ :: inside ++ ⟨b.keeper, none⟩ :: rest) outcome
  | lost {scope : Scope} {b : Enclosure} {body : Work V} {next : Except Error V → Work V} {inside : List Command} {v : V}
      (d : DriverError) : scope.Has b → Story body inside (.ok v) →
      Story (.block scope body next) (⟨b.opener, none⟩ :: inside ++ [⟨b.keeper, some d⟩]) (.error d.toError)
  | undone {scope : Scope} {b : Enclosure} {body : Work V} {next : Except Error V → Work V} {inside rest : List Command}
      {e : Error} {outcome : Except Error V} : scope.Has b → Story body inside (.error e) →
      Story (next (.error e)) rest outcome →
      Story (.block scope body next) (⟨b.opener, none⟩ :: inside ++ ⟨b.undoer, none⟩ :: rest) outcome
  | stuck {scope : Scope} {b : Enclosure} {body : Work V} {next : Except Error V → Work V} {inside rest : List Command}
      {e : Error} {outcome : Except Error V} (d : DriverError) : scope.Has b → Story body inside (.error e) →
      Story (next (.error (.transaction s!"{e.message} ({b.note}: {d.text})"))) rest outcome →
      Story (.block scope body next) (⟨b.opener, none⟩ :: inside ++ ⟨b.undoer, some d⟩ :: rest) outcome

theorem bracketed_append {first second : List Command} (left : Bracketed first) (right : Bracketed second) :
    Bracketed (first ++ second) := by
  induction left with
  | nil => exact right
  | refused d has aftermath _ ih =>
      rw [List.append_assoc]
      exact .refused d has aftermath ih
  | closed refusal has closer inside _ _ ih =>
      rw [List.append_assoc]
      exact .closed refusal has closer inside ih

theorem story_bracketed {V : Type} {work : Work V} {log : List Command} {outcome : Except Error V}
    (story : Story work log outcome) : Bracketed log := by
  induction story with
  | finish => exact .nil
  | send reply _ ih => exact ih
  | call _ _ inside rest => exact bracketed_append inside rest
  | refused d has aftermath =>
      have alone := Bracketed.refused d has aftermath .nil
      rwa [List.append_nil] at alone
  | kept has _ _ inside rest => exact .closed none has (.inl rfl) inside rest
  | lost d has _ inside => exact .closed (some d) has (.inl rfl) inside .nil
  | undone has _ _ inside rest => exact .closed none has (.inr rfl) inside rest
  | stuck d has _ _ inside rest => exact .closed (some d) has (.inr rfl) inside rest

def Numbered.log {σ : Type} (s : Numbered (Logged σ)) : List Command :=
  s.inner.log

section Courses

variable {σ V : Type} (link : Link σ) {body : Run (Numbered (Logged σ)) V}

-- The ways from a scope that is open to the end of its block.
inductive Closes (b : Enclosure) (body : Run (Numbered (Logged σ)) V) (s : Numbered (Logged σ)) :
    EStateM.Result Error (Numbered (Logged σ)) (Except Error V) → Prop
  | kept {v : V} {t u : Numbered (Logged σ)} : body s = .ok v t → u.log = t.log ++ [⟨b.keeper, none⟩] →
      Closes b body s (.ok (.ok v) u)
  | lost {v : V} {d : DriverError} {t u : Numbered (Logged σ)} : body s = .ok v t →
      u.log = t.log ++ [⟨b.keeper, some d⟩] → Closes b body s (.error d.toError u)
  | undone {e : Error} {t u : Numbered (Logged σ)} : body s = .error e t → u.log = t.log ++ [⟨b.undoer, none⟩] →
      Closes b body s (.ok (.error e) u)
  | stuck {e : Error} {d : DriverError} {t u : Numbered (Logged σ)} : body s = .error e t →
      u.log = t.log ++ [⟨b.undoer, some d⟩] → Closes b body s (.ok (.error (Transaction.bothFailed e b.note d)) u)

inductive Scope.Course (scope : Scope) (body : Run (Numbered (Logged σ)) V) (s : Numbered (Logged σ)) :
    EStateM.Result Error (Numbered (Logged σ)) (Except Error V) → Prop
  | refused {b : Enclosure} {d : DriverError} {more : List Command} {t : Numbered (Logged σ)} : scope.Has b →
      scope.Aftermath more → t.log = s.log ++ ⟨b.opener, some d⟩ :: more → Scope.Course scope body s (.error d.toError t)
  | opened {b : Enclosure} {t : Numbered (Logged σ)} {r : EStateM.Result Error (Numbered (Logged σ)) (Except Error V)} :
      scope.Has b → t.log = s.log ++ [⟨b.opener, none⟩] → Closes b body t r → Scope.Course scope body s r

theorem logged_command (text : String) (s : Numbered (Logged σ)) :
    (∃ t : Numbered (Logged σ), link.logged.numbered.command text s = .ok () t ∧ t.log = s.log ++ [⟨text, none⟩]) ∨
    ∃ (d : DriverError) (t : Numbered (Logged σ)),
      link.logged.numbered.command text s = .error d t ∧ t.log = s.log ++ [⟨text, some d⟩] := by
  simp only [Link.numbered, Numbered.lift, Run.zoom, Link.logged]
  cases link.command text s.inner.behind with
  | ok done behind => exact .inl ⟨_, rfl, rfl⟩
  | error d behind => exact .inr ⟨d, _, rfl, rfl⟩

theorem closing_closes (b : Enclosure) (s : Numbered (Logged σ)) :
    Closes b body s (Transaction.closing link.logged.numbered b body s) := by
  rw [Transaction.closing]
  cases returned : body s with
  | ok v t =>
      obtain ⟨u, sent, log⟩ | ⟨d, u, sent, log⟩ := logged_command link b.keeper t
      · simpa only [sent] using .kept returned log
      · simpa only [sent] using .lost returned log
  | error e t =>
      obtain ⟨u, sent, log⟩ | ⟨d, u, sent, log⟩ := logged_command link b.undoer t
      · simpa only [sent] using .undone returned log
      · simpa only [sent] using .stuck returned log

theorem transaction_course (s : Numbered (Logged σ)) :
    Scope.Course .transaction body s (Transaction.block link.logged.numbered body s) := by
  simp only [Transaction.block, Transaction.enclosed, Transaction.start, Transaction.command]
  obtain ⟨t, sent, log⟩ | ⟨d, t, sent, log⟩ := logged_command link Transaction.enclosure.opener s
  · simpa only [sent] using .opened .transaction log (closing_closes link _ t)
  · simp only [sent, Transaction.attempt]
    obtain ⟨u, again, more⟩ | ⟨f, u, again, more⟩ := logged_command link Transaction.enclosure.undoer t
    · rw [log, List.append_assoc] at more
      simpa only [again] using .refused .transaction (.transaction none) more
    · rw [log, List.append_assoc] at more
      simpa only [again] using .refused .transaction (.transaction (some f)) more

-- Savepoints differ by name and by what is said.
theorem enclosed_course {scope : Scope} {b : Enclosure} (has : scope.Has b) (aftermath : scope.Aftermath [])
    (s : Numbered (Logged σ)) :
    scope.Course body s
      (Transaction.enclosed link.logged.numbered (Transaction.command link.logged.numbered b.opener) b body s) := by
  simp only [Transaction.enclosed, Transaction.command]
  obtain ⟨t, sent, log⟩ | ⟨d, t, sent, log⟩ := logged_command link b.opener s
  · simpa only [sent] using .opened has log (closing_closes link b t)
  · simpa only [sent] using .refused has aftermath log

theorem block_course (scope : Scope) (s : Numbered (Logged σ)) :
    scope.Course body s (scope.block link.logged body s) := by
  cases scope with
  | transaction => exact transaction_course link s
  | inner name => exact enclosed_course link (.inner name) (.inner name) s
  | savepoint name =>
      cases name with
      | some name => exact enclosed_course link (.named name) (.savepoint _) s
      | none =>
          -- Taking a number leaves the log.
          have course : Scope.Course (.savepoint none) body ⟨s.inner, s.count + 1⟩
              ((Scope.savepoint none).block link.logged body s) :=
            enclosed_course link (.numbered s.count (.named _)) (.savepoint none) ⟨s.inner, s.count + 1⟩
          generalize (Scope.savepoint none).block link.logged body s = r at course ⊢
          cases course with
          | refused has aftermath log => exact .refused has aftermath log
          | opened has log closes => exact .opened has log closes

end Courses

section Erasing

variable {σ : Type} (link : Link σ)

def Numbered.unlogged (s : Numbered (Logged σ)) : Numbered σ :=
  ⟨s.inner.behind, s.count⟩

def Unlogged {ε α : Type} :
    EStateM.Result ε (Numbered (Logged σ)) α → EStateM.Result ε (Numbered σ) α
  | .ok a s => .ok a s.unlogged
  | .error e s => .error e s.unlogged

-- Both come to the same, but for the log.
def Mirrors {ε α : Type} (logged : EStateM ε (Numbered (Logged σ)) α) (plain : EStateM ε (Numbered σ) α) : Prop :=
  ∀ s, Unlogged (logged s) = plain s.unlogged

theorem mirrors_answer {α : Type} {logged : Run (Numbered (Logged σ)) α} {plain : Run (Numbered σ) α}
    (same : Mirrors logged plain) (s : Numbered (Logged σ)) : Run.answer plain s.unlogged = Run.answer logged s := by
  rw [Run.answer, ← same s, Run.answer]
  cases logged s <;> rfl

theorem mirrors_after {α : Type} {logged : Run (Numbered (Logged σ)) α} {plain : Run (Numbered σ) α}
    (same : Mirrors logged plain) (s : Numbered (Logged σ)) :
    (Run.after logged s).unlogged = Run.after plain s.unlogged := by
  rw [Run.after, Run.after, ← same s]
  cases logged s <;> rfl

theorem command_mirrors (text : String) : Mirrors (link.logged.numbered.command text) (link.numbered.command text) := by
  intro s
  simp only [Link.numbered, Numbered.lift, Run.zoom, Link.logged, Numbered.unlogged]
  cases link.command text s.inner.behind <;> rfl

theorem send_mirrors (sql : String) (params : List Value) :
    Mirrors (link.logged.numbered.send sql params) (link.numbered.send sql params) := by
  intro s
  simp only [Link.numbered, Numbered.lift, Run.zoom, Link.logged, Numbered.unlogged]
  cases link.send sql params s.inner.behind <;> rfl

variable {α : Type} {logged : Run (Numbered (Logged σ)) α} {plain : Run (Numbered σ) α}

theorem opener_mirrors (text : String) :
    Mirrors (Transaction.command link.logged.numbered text) (Transaction.command link.numbered text) := by
  intro s
  simp only [Transaction.command]
  rw [← command_mirrors link text s]
  cases link.logged.numbered.command text s <;> rfl

theorem closing_mirrors (b : Enclosure) (same : Mirrors logged plain) :
    Mirrors (Transaction.closing link.logged.numbered b logged) (Transaction.closing link.numbered b plain) := by
  intro s
  simp only [Transaction.closing]
  rw [← same s]
  cases logged s with
  | ok a t =>
      simp only [Unlogged]
      rw [← command_mirrors link b.keeper t]
      cases link.logged.numbered.command b.keeper t <;> rfl
  | error e t =>
      simp only [Unlogged]
      rw [← command_mirrors link b.undoer t]
      cases link.logged.numbered.command b.undoer t <;> rfl

theorem enclosed_mirrors (b : Enclosure) {opening : Run (Numbered (Logged σ)) Unit} {bare : Run (Numbered σ) Unit}
    (opens : Mirrors opening bare) (same : Mirrors logged plain) :
    Mirrors (Transaction.enclosed link.logged.numbered opening b logged)
      (Transaction.enclosed link.numbered bare b plain) := by
  intro s
  simp only [Transaction.enclosed]
  rw [← opens s]
  cases opening s with
  | ok done t => exact closing_mirrors link b same t
  | error e t => rfl

theorem start_mirrors : Mirrors (Transaction.start link.logged.numbered) (Transaction.start link.numbered) := by
  intro s
  simp only [Transaction.start]
  rw [← opener_mirrors link _ s]
  cases Transaction.command link.logged.numbered Transaction.enclosure.opener s with
  | ok done t => rfl
  | error e t =>
      simp only [Unlogged, Transaction.attempt]
      rw [← command_mirrors link _ t]
      cases link.logged.numbered.command Transaction.enclosure.undoer t <;> rfl

theorem block_mirrors (scope : Scope) (same : Mirrors logged plain) :
    Mirrors (scope.block link.logged logged) (scope.block link plain) := by
  cases scope with
  | transaction => exact enclosed_mirrors link _ (start_mirrors link) same
  | inner name => exact enclosed_mirrors link _ (opener_mirrors link _) same
  | savepoint name =>
      cases name with
      | some name => exact enclosed_mirrors link _ (opener_mirrors link _) same
      | none =>
          intro s
          exact enclosed_mirrors link _ (opener_mirrors link _) same ⟨s.inner, s.count + 1⟩

-- The log changes nothing: a function comes to the same with it and without it.
theorem work_mirrors {V : Type} (work : Work V) : Mirrors (work.run link.logged) (work.run link) := by
  induction work with
  | finish outcome =>
      intro s
      cases outcome <;> rfl
  | send sql params next ih =>
      intro s
      simp only [Work.run]
      rw [← send_mirrors link sql params s]
      cases link.logged.numbered.send sql params s with
      | ok reply t => exact ih (.ok reply) t
      | error d t => exact ih (.error d) t
  | call body next ihBody ih =>
      intro s
      simp only [Work.run]
      rw [← ihBody s]
      cases body.run link.logged s with
      | ok v t => exact ih (.ok v) t
      | error e t => exact ih (.error e) t
  | block scope body next ihBody ih =>
      intro s
      simp only [Work.run]
      rw [← block_mirrors link scope ihBody s]
      cases scope.block link.logged (body.run link.logged) s with
      | ok outcome t => exact ih outcome t
      | error e t => rfl

end Erasing

section Telling

variable {σ V : Type}

-- What the run of a function adds to the log tells its story.
def Tells (work : Work V) (run : Run (Numbered (Logged σ)) V) : Prop :=
  ∀ s, ∃ log, (Run.after run s).log = s.log ++ log ∧ Story work log (Run.answer run s)

variable {scope : Scope} {body : Work V} {next : Except Error V → Work V} {run : Run (Numbered (Logged σ)) V}

theorem value_told (tells : Tells body run) {s t : Numbered (Logged σ)} {v : V} (returned : run s = .ok v t) :
    ∃ log, t.log = s.log ++ log ∧ Story body log (.ok v) := by
  have told := tells s
  rwa [Run.after, Run.answer, returned] at told

theorem error_told (tells : Tells body run) {s t : Numbered (Logged σ)} {e : Error} (returned : run s = .error e t) :
    ∃ log, t.log = s.log ++ log ∧ Story body log (.error e) := by
  have told := tells s
  rwa [Run.after, Run.answer, returned] at told

theorem log_behind {s t u : Numbered (Logged σ)} {first second : List Command} (left : t.log = s.log ++ first)
    (right : u.log = t.log ++ second) : u.log = s.log ++ (first ++ second) := by
  rw [right, left, List.append_assoc]

theorem course_goes_on (tells : Tells body run) {s t : Numbered (Logged σ)} {outcome : Except Error V}
    (course : scope.Course run s (.ok outcome t)) :
    ∃ log, t.log = s.log ++ log ∧ ∀ rest result, Story (next outcome) rest result →
      Story (.block scope body next) (log ++ rest) result := by
  cases course with
  | opened has opened closes =>
      cases closes with
      | kept returned closed =>
          obtain ⟨inside, grown, told⟩ := value_told tells returned
          refine ⟨_, log_behind (log_behind opened grown) closed, fun rest result later => ?_⟩
          rw [List.append_assoc]
          exact .kept has told later
      | undone returned closed =>
          obtain ⟨inside, grown, told⟩ := error_told tells returned
          refine ⟨_, log_behind (log_behind opened grown) closed, fun rest result later => ?_⟩
          rw [List.append_assoc]
          exact .undone has told later
      | stuck returned closed =>
          obtain ⟨inside, grown, told⟩ := error_told tells returned
          refine ⟨_, log_behind (log_behind opened grown) closed, fun rest result later => ?_⟩
          rw [List.append_assoc]
          exact .stuck _ has told later

theorem course_ends (tells : Tells body run) {s t : Numbered (Logged σ)} {e : Error}
    (course : scope.Course run s (.error e t)) :
    ∃ log, t.log = s.log ++ log ∧ Story (.block scope body next) log (.error e) := by
  cases course with
  | refused has aftermath log => exact ⟨_, log, .refused _ has aftermath⟩
  | opened has opened closes =>
      cases closes with
      | lost returned closed =>
          obtain ⟨inside, grown, told⟩ := value_told tells returned
          exact ⟨_, log_behind (log_behind opened grown) closed, .lost _ has told⟩

end Telling

theorem logged_send {σ : Type} (link : Link σ) (sql : String) (params : List Value) (s : Numbered (Logged σ)) :
    (∃ (reply : Reply) (t : Numbered (Logged σ)),
      link.logged.numbered.send sql params s = .ok reply t ∧ t.log = s.log) ∨
    ∃ (d : DriverError) (t : Numbered (Logged σ)),
      link.logged.numbered.send sql params s = .error d t ∧ t.log = s.log := by
  simp only [Link.numbered, Numbered.lift, Run.zoom, Link.logged]
  cases link.send sql params s.inner.behind with
  | ok reply behind => exact .inl ⟨reply, _, rfl, rfl⟩
  | error d behind => exact .inr ⟨d, _, rfl, rfl⟩

theorem work_tells {σ V : Type} (link : Link σ) (work : Work V) : Tells work (work.run link.logged) := by
  induction work with
  | finish outcome =>
      intro s
      cases outcome <;> exact ⟨[], (List.append_nil _).symm, .finish _⟩
  | send sql params next ih =>
      intro s
      simp only [Run.after, Run.answer, Work.run]
      obtain ⟨reply, t, sent, same⟩ | ⟨d, t, sent, same⟩ := logged_send link sql params s
      · obtain ⟨log, grown, told⟩ := ih (.ok reply) t
        simp only [sent]
        exact ⟨log, same ▸ grown, .send _ told⟩
      · obtain ⟨log, grown, told⟩ := ih (.error d) t
        simp only [sent]
        exact ⟨log, same ▸ grown, .send _ told⟩
  | call body next ihBody ih =>
      intro s
      simp only [Run.after, Run.answer, Work.run]
      cases returned : body.run link.logged s with
      | ok v t =>
          obtain ⟨inside, grown, told⟩ := value_told ihBody returned
          obtain ⟨rest, added, later⟩ := ih (.ok v) t
          exact ⟨_, log_behind grown added, .call told later⟩
      | error e t =>
          obtain ⟨inside, grown, told⟩ := error_told ihBody returned
          obtain ⟨rest, added, later⟩ := ih (.error e) t
          exact ⟨_, log_behind grown added, .call told later⟩
  | block scope body next ihBody ih =>
      intro s
      have course : scope.Course (body.run link.logged) s (scope.block link.logged (body.run link.logged) s) :=
        block_course link scope s
      simp only [Run.after, Run.answer, Work.run]
      cases went : scope.block link.logged (body.run link.logged) s with
      | ok outcome t =>
          rw [went] at course
          obtain ⟨inside, grown, goesOn⟩ := course_goes_on ihBody course
          obtain ⟨rest, added, later⟩ := ih outcome t
          exact ⟨_, log_behind grown added, goesOn rest _ later⟩
      | error e t =>
          rw [went] at course
          exact course_ends ihBody course

theorem scopes_well_bracketed {σ V : Type} (link : Link σ) (work : Work V) (s : Numbered σ) :
    let begun : Numbered (Logged σ) := ⟨⟨s.inner, []⟩, s.count⟩
    let ended := Run.after (work.run link.logged) begun
    ended.unlogged = Run.after (work.run link) s ∧ Bracketed ended.log ∧
      Story work ended.log (Run.answer (work.run link) s) := by
  intro begun ended
  have mirrors := work_mirrors link work
  obtain ⟨log, grown, told⟩ := work_tells link work begun
  have whole : ended.log = log := grown
  rw [← mirrors_answer mirrors begun] at told
  rw [whole]
  exact ⟨mirrors_after mirrors begun, story_bracketed told, told⟩

-- The notification of an order, which is sent but cannot be kept, and what is done behind it whatever became of it.
def refusedRelease : DriverError :=
  .server "25P02" none "no"

def notifyServer : Numbered ScriptedServer :=
  ⟨.ofScript [] [("RELEASE notify", refusedRelease)], 0⟩

def notifyBody : Work Nat :=
  .send "NOTIFY orders" [] fun _ => .finish (.ok 0)

def afterNotify (_ : Except Error Nat) : Work Nat :=
  .finish (.ok 7)

-- The error of the refused command does not come back as the result of the block: nothing behind the block is run.
theorem refused_release_ends_function :
    ¬ ∀ (scope : Scope) (body : Work Nat) (next : Except Error Nat → Work Nat) (s : Numbered ScriptedServer)
      (b : Enclosure) (inside rest : List Command) (v : Nat) (d : DriverError), scope.Has b →
      Story body inside (.ok v) →
      (Run.after ((Work.block scope body next).run ScriptedServer.link.logged) ⟨⟨s.inner, []⟩, s.count⟩).log =
        ⟨b.opener, none⟩ :: inside ++ ⟨b.keeper, some d⟩ :: rest →
      Story (next (.error d.toError)) rest (Run.answer ((Work.block scope body next).run ScriptedServer.link) s) := by
  intro goesOn
  let work : Work Nat := .block (.savepoint (some "notify")) notifyBody afterNotify
  have log : (Run.after (work.run ScriptedServer.link.logged) ⟨⟨notifyServer.inner, []⟩, 0⟩).log =
      [⟨"SAVEPOINT notify", none⟩, ⟨"RELEASE notify", some refusedRelease⟩] := by
    decide +kernel
  have ended : (Run.answer (work.run ScriptedServer.link) notifyServer).toOption = none := by
    decide +kernel
  have sent : Story notifyBody [] (.ok 0) := .send (.ok .empty) (.finish (.ok 0))
  have story : Story (.finish (.ok 7)) [] (Run.answer (work.run ScriptedServer.link) notifyServer) :=
    goesOn _ notifyBody afterNotify notifyServer _ [] [] 0 refusedRelease (.named "notify") sent log
  generalize Run.answer (work.run ScriptedServer.link) notifyServer = answer at story ended
  cases story
  cases ended

end QueryBuilder

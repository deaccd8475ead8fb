import QueryBuilder.Proofs.Aspects
import QueryBuilder.Proofs.Focus

/-!
Calls about different aspects of a query.

Main statement: a call of the builder leaves every aspect that it is not about as it is, and two calls
that are about no aspect in common answer the same and lead to the same draft in either order.
-/

set_option autoImplicit false

namespace QueryBuilder

-- What the builder is told: to change the query, or to open a cursor and what to do through it.
inductive BuilderCall where
  | plain (c : Call)
  | through (opening : Opening) (calls : List CursorCall)

-- The query that a cursor gives back is the state and no answer of its own.
def CursorReply.told : CursorReply → CursorReply
  | .kind _ => .done
  | reply => reply

def Opening.slot : Opening → Slot
  | .root slot => slot
  | .group slot _ => slot

namespace BuilderCall

def aspects : BuilderCall → List Aspect
  | plain c => c.aspects
  | through opening _ => [opening.slot.aspect]

-- The answers of a call, and the draft that it leaves.
def run (d : Draft) : BuilderCall → List (Except Error CursorReply) × Draft
  | plain c => ([(Run.answer (Draft.call c) d).map fun _ => .done], Run.after (Draft.call c) d)
  | through opening calls =>
      let (replies, k) := Cursor.callAll calls (opening.cursor d)
      (replies.map fun reply => reply.map CursorReply.told, k.draft?.getD d)

end BuilderCall

def Draft.AgreeOn (S : List Aspect) (d e : Draft) : Prop :=
  ∀ a ∈ S, d.query.look a = e.query.look a

-- What is done to a draft looks at some aspects alone, and writes to these alone. What is remembered
-- of the compiled form is kept or forgotten without being looked at.
structure Confined {ω : Type} (S : List Aspect) (deed : Draft → ω × Draft) : Prop where
  kept : ∀ d a, a ∉ S → (deed d).2.query.look a = d.query.look a
  final : ∀ d, (deed d).2.isFinal = d.isFinal
  blind : ∀ d e, d.AgreeOn S e → (deed d).1 = (deed e).1 ∧ (deed d).2.AgreeOn S (deed e).2 ∧
    ∃ forgets : Bool, (deed d).2.memo = (if forgets then none else d.memo) ∧
      (deed e).2.memo = if forgets then none else e.memo

section Confined

variable {ω : Type} {S : List Aspect} {a : Aspect}

theorem confined_done (answer : ω) : Confined S fun d => (answer, d) where
  kept _ _ _ := rfl
  final _ := rfl
  blind _ _ agree := ⟨rfl, agree, false, rfl, rfl⟩

-- Something that depends on what is found in an aspect.
theorem confined_look (member : a ∈ S) {deed : Draft → ω × Draft} (after : a.Content → Draft → ω × Draft)
    (looks : ∀ d, deed d = after (d.query.look a) d) (each : ∀ x, Confined S (after x)) : Confined S deed where
  kept d := by
    rw [looks d]
    exact (each _).kept d
  final d := by
    rw [looks d]
    exact (each _).final d
  blind d e agree := by
    rw [looks d, looks e, agree a member]
    exact (each _).blind d e agree

theorem agree_on_put {d e : Draft} (agree : d.AgreeOn S e) (x : a.Content) :
    (d.replace (d.query.put a x)).AgreeOn S (e.replace (e.query.put a x)) := by
  intro b member
  by_cases same : b = a
  · subst same
    exact (d.query.look_put b x).trans (e.query.look_put b x).symm
  · exact (d.query.look_put_other same x).trans ((agree b member).trans (e.query.look_put_other same x).symm)

theorem confined_put (member : a ∈ S) (x : a.Content) {deed : Draft → ω × Draft} (rest : Confined S deed) :
    Confined S fun d => deed (d.replace (d.query.put a x)) where
  kept d b outside := by
    have other : b ≠ a := fun same => outside (same ▸ member)
    exact (rest.kept _ b outside).trans (d.query.look_put_other other x)
  final d := rest.final (d.replace (d.query.put a x))
  blind d e agree := by
    obtain ⟨answers, leaves, forgets, memoD, memoE⟩ := rest.blind _ _ (agree_on_put agree x)
    refine ⟨answers, leaves, true, memoD.trans ?_, memoE.trans ?_⟩ <;> cases forgets <;> rfl

theorem confined_map {ψ : Type} (f : ω → ψ) {deed : Draft → ω × Draft} (confined : Confined S deed) :
    Confined S fun d => (f (deed d).1, (deed d).2) where
  kept := confined.kept
  final := confined.final
  blind d e agree := by
    obtain ⟨answers, leaves⟩ := confined.blind d e agree
    exact ⟨congrArg f answers, leaves⟩

-- The later one sees what it would have seen, and the earlier one has left what is not its own.
theorem confined_look_apart {ψ : Type} {T : List Aspect} {first : Draft → ω × Draft} {second : Draft → ψ × Draft}
    (apart : ∀ a ∈ S, a ∉ T) (one : Confined S first) (two : Confined T second) (d : Draft) (member : a ∈ S) :
    (second (first d).2).2.query.look a = (first (second d).2).2.query.look a := by
  have agree : (second d).2.AgreeOn S d := fun b inside => two.kept d b (apart b inside)
  exact (two.kept _ a (apart a member)).trans ((one.blind _ _ agree).2.1 a member).symm

theorem confined_commute {ψ : Type} {T : List Aspect} {first : Draft → ω × Draft} {second : Draft → ψ × Draft}
    (apart : ∀ a ∈ S, a ∉ T) (one : Confined S first) (two : Confined T second) (d : Draft) :
    (second (first d).2).1 = (second d).1 ∧ (first (second d).2).1 = (first d).1 ∧
      (second (first d).2).2 = (first (second d).2).2 := by
  have apart' : ∀ a ∈ T, a ∉ S := fun a inT inS => apart a inS inT
  obtain ⟨firstAnswers, -, forgets, firstMemo, firstMemo'⟩ :=
    one.blind (second d).2 d fun a member => two.kept d a (apart a member)
  obtain ⟨secondAnswers, -, forgets', secondMemo, secondMemo'⟩ :=
    two.blind (first d).2 d fun a member => one.kept d a (apart' a member)
  have query : (second (first d).2).2.query = (first (second d).2).2.query := by
    apply Query.eq_of_look
    intro a
    by_cases inS : a ∈ S
    · exact confined_look_apart apart one two d inS
    · by_cases inT : a ∈ T
      · exact (confined_look_apart apart' two one d inT).symm
      · rw [two.kept _ a inT, one.kept _ a inS, one.kept _ a inS, two.kept _ a inT]
  have memo : (second (first d).2).2.memo = (first (second d).2).2.memo := by
    rw [secondMemo, firstMemo', firstMemo, secondMemo']
    cases forgets <;> cases forgets' <;> rfl
  have final : (second (first d).2).2.isFinal = (first (second d).2).2.isFinal := by
    rw [two.final, one.final, one.final, two.final]
  refine ⟨secondAnswers, firstAnswers, ?_⟩
  generalize (second (first d).2).2 = left at query memo final
  generalize (first (second d).2).2 = right at query memo final
  cases left
  cases right
  simp only at query memo final
  rw [query, memo, final]

end Confined

def Run.outcome {σ α : Type} (run : Run σ α) (s : σ) : Except Error α × σ :=
  (Run.answer run s, Run.after run s)

-- What a change and those behind it come to, once it is known what is found in the aspect that it is about.
def changeOutcome {a : Aspect} (g : a.Content → Except Error a.Content) (cs : List Change) (x : a.Content) (d : Draft) :
    Except Error Unit × Draft :=
  match g x with
  | .error e => (.error e, d)
  | .ok x => Run.outcome (Draft.changeAll cs) (d.replace (d.query.put a x))

theorem change_outcome {a : Aspect} {c : Change} (cs : List Change) {g : a.Content → Except Error a.Content}
    (about : ∀ q, c q = (g (q.look a)).map (q.put a)) (d : Draft) :
    Run.outcome (Draft.changeAll (c :: cs)) d = changeOutcome g cs (d.query.look a) d := by
  simp only [changeOutcome, Run.outcome, Run.answer, Run.after, change_all_cons, about]
  cases g (d.query.look a) <;> rfl

theorem confined_changes {S : List Aspect} (cs : List Change)
    (each : ∀ c ∈ cs, (∃ a ∈ S, c.About a) ∨ ∃ e, c = fun _ => .error e) :
    Confined S (Run.outcome (Draft.changeAll cs)) := by
  induction cs with
  | nil => exact confined_done (Except.ok ())
  | cons c cs ih =>
      obtain ⟨first, others⟩ := List.forall_mem_cons.mp each
      obtain ⟨a, member, g, about⟩ | ⟨e, rfl⟩ := first
      · refine confined_look member (changeOutcome g cs) (change_outcome cs about) fun x => ?_
        unfold changeOutcome
        cases g x with
        | error e => exact confined_done (Except.error e)
        | ok x => exact confined_put member x (ih others)
      · exact confined_done (Except.error e)

-- An edit opens the tree and puts the edited one in its place.
theorem edit_attached {α : Type} (f : Condition → Except Error (α × Condition)) (d : Draft) (slot : Slot)
    (path : List Nat) :
    Cursor.edit f ⟨.attached d slot, path⟩ =
      match (d.query.tree slot).editAt f path with
      | .error e => .error e ⟨.attached (d.replace (d.query.openTree slot)) slot, path⟩
      | .ok (r, c) => .ok r ⟨.attached (d.replace (d.query.putTree slot c)) slot, path⟩ := by
  have root : (Anchor.attached d slot).opened.root = d.query.tree slot :=
    Anchor.root_of_root? (Anchor.put_root _ _)
  simp only [Cursor.edit, root]
  cases (d.query.tree slot).editAt f path with
  | error e => rfl
  | ok result =>
      have placed : (Anchor.attached d slot).opened.put result.2 = (Anchor.attached d slot).put result.2 :=
        Anchor.put_twice _ _ _
      simp only [placed]
      rfl

-- What calls do through a cursor into a tree of a draft.
def visit (slot : Slot) (path : List Nat) (calls : List CursorCall) (unheld d : Draft) :
    List (Except Error CursorReply) × Draft :=
  let (replies, k) := Cursor.callAll calls ⟨.attached d slot, path⟩
  (replies.map fun reply => reply.map CursorReply.told, k.draft?.getD unheld)

-- An edit of the tree that is refused ends what is done, and one that is made leads on.
theorem confined_edit {S : List Aspect} {slot : Slot} (member : slot.aspect ∈ S) {α ω : Type}
    (f : Condition → Except Error (α × Condition)) (path : List Nat) (fail : Error → ω)
    (next : α → Draft → ω × Draft) (each : ∀ r, Confined S (next r)) {deed : Draft → ω × Draft}
    (edits : ∀ d, deed d =
      match (d.query.tree slot).editAt f path with
      | .error e => (fail e, d.replace (d.query.openTree slot))
      | .ok (r, c) => next r (d.replace (d.query.putTree slot c))) : Confined S deed := by
  let tree (x : slot.aspect.Content) := (slot.read x).getD (.empty .and)
  let after (x : slot.aspect.Content) (d : Draft) :=
    match (tree x).editAt f path with
    | .error e => (fail e, d.replace (d.query.put slot.aspect (slot.write (tree x) x)))
    | .ok (r, c) => next r (d.replace (d.query.put slot.aspect (slot.write c x)))
  refine confined_look member after (fun d => ?_) fun x => ?_
  · simp only [edits, after, tree, Query.openTree, Query.tree, slot.read_look, slot.write_put]
  · simp only [after]
    cases (tree x).editAt f path with
    | error e => exact confined_put member (slot.write (tree x) x) (confined_done (fail e))
    | ok result => exact confined_put member (slot.write result.2 x) (each result.1)

-- An answer, and those of what is done next.
def answered (reply : CursorReply) (next : Draft → List (Except Error CursorReply) × Draft) (d : Draft) :
    List (Except Error CursorReply) × Draft :=
  (.ok reply.told :: (next d).1, (next d).2)

section Visit

variable {slot : Slot} {path : List Nat} {c : CursorCall} (cs : List CursorCall) (unheld d : Draft)

theorem visit_refused {e : Error} {k : Cursor} (refused : Cursor.call c ⟨.attached d slot, path⟩ = .error e k) :
    visit slot path (c :: cs) unheld d = ([.error e], k.draft?.getD unheld) := by
  simp only [visit, Cursor.callAll, refused]
  rfl

theorem visit_answered {reply : CursorReply} {after : Draft} {path' : List Nat} (stays : c ≠ .query)
    (done : Cursor.call c ⟨.attached d slot, path⟩ = .ok reply ⟨.attached after slot, path'⟩) :
    visit slot path (c :: cs) unheld d = answered reply (visit slot path' cs unheld) after := by
  cases c with
  | query => exact absurd rfl stays
  | _ =>
      simp only [visit, Cursor.callAll, done]
      rfl

variable {cs} {unheld} (rest : ∀ path, Confined [slot.aspect] (visit slot path cs unheld))

include rest

theorem confined_answered (reply : CursorReply) (path : List Nat) :
    Confined [slot.aspect] (answered reply (visit slot path cs unheld)) :=
  confined_map (fun replies => Except.ok reply.told :: replies) (rest path)

theorem confined_edit_call {f : Condition → Except Error (CursorReply × Condition)} (stays : c ≠ .query)
    (edits : Cursor.call c = Cursor.edit f) : Confined [slot.aspect] (visit slot path (c :: cs) unheld) := by
  refine confined_edit (List.mem_singleton_self _) f path (fun e => [Except.error e])
    (fun r => answered r (visit slot path cs unheld)) (fun r => confined_answered rest r path) fun d => ?_
  have made := edit_attached f d slot path
  rw [← edits] at made
  cases result : (d.query.tree slot).editAt f path with
  | error e =>
      rw [result] at made
      exact visit_refused cs unheld d made
  | ok r =>
      rw [result] at made
      exact visit_answered cs unheld d stays made

theorem confined_quiet_call (reply : Option Condition → CursorReply) (stays : c ≠ .query)
    (answers : ∀ d, Cursor.call c ⟨.attached d slot, path⟩ =
      .ok (reply ((d.query.tree? slot).bind (Condition.branchAt? path))) ⟨.attached d slot, path⟩) :
    Confined [slot.aspect] (visit slot path (c :: cs) unheld) := by
  refine confined_look (List.mem_singleton_self _)
    (fun x => answered (reply ((slot.read x).bind (Condition.branchAt? path))) (visit slot path cs unheld))
    (fun d => ?_) fun x => confined_answered rest _ path
  rw [visit_answered cs unheld d stays (answers d), slot.read_look]

theorem confined_descend (combinator : Combinator) :
    Confined [slot.aspect] (visit slot path (.descend combinator :: cs) unheld) := by
  let f (b : Condition) : Except Error (Nat × Condition) := .ok (b.length, b.push (.branch (.empty combinator)))
  refine confined_edit (List.mem_singleton_self _) f path (fun e => [Except.error e])
    (fun offset => answered .done (visit slot (path ++ [offset]) cs unheld))
    (fun offset => confined_answered rest .done (path ++ [offset])) fun d => ?_
  have made := edit_attached f d slot path
  have told : Cursor.call (.descend combinator) ⟨.attached d slot, path⟩ =
      match (d.query.tree slot).editAt f path with
      | .error e => .error e ⟨.attached (d.replace (d.query.openTree slot)) slot, path⟩
      | .ok (offset, c) => .ok .done ⟨.attached (d.replace (d.query.putTree slot c)) slot, path ++ [offset]⟩ := by
    simp only [Cursor.call, Cursor.descend]
    rw [made]
    cases (d.query.tree slot).editAt f path <;> rfl
  cases result : (d.query.tree slot).editAt f path with
  | error e =>
      rw [result] at told
      exact visit_refused cs unheld d told
  | ok r =>
      rw [result] at told
      exact visit_answered cs unheld d (by simp) told

theorem confined_parent : Confined [slot.aspect] (visit slot path (.parent :: cs) unheld) := by
  by_cases atRoot : path.isEmpty
  · have refused (d : Draft) : visit slot path (.parent :: cs) unheld d = ([.error .noParent], d) := by
      refine visit_refused (k := ⟨.attached d slot, path⟩) cs unheld d ?_
      simp only [Cursor.call, Cursor.parent, if_pos atRoot]
    rw [funext refused]
    exact confined_done [Except.error Error.noParent]
  · have left (d : Draft) :
        visit slot path (.parent :: cs) unheld d = answered .done (visit slot path.dropLast cs unheld) d := by
      refine visit_answered cs unheld d (by simp) ?_
      simp only [Cursor.call, Cursor.parent, if_neg atRoot]
    rw [funext left]
    exact confined_answered rest .done path.dropLast

end Visit

theorem confined_visit (slot : Slot) (calls : List CursorCall) (path : List Nat) (unheld : Draft) :
    Confined [slot.aspect] (visit slot path calls unheld) := by
  induction calls generalizing path with
  | nil => exact confined_done []
  | cons c cs rest =>
      cases c with
      | add | set | remove => exact confined_edit_call rest nofun rfl
      | descend combinator => exact confined_descend rest combinator
      | parent => exact confined_parent rest
      | get offset =>
          let reply (b : Option Condition) := CursorReply.node (b.bind fun c => c.get? offset)
          exact confined_quiet_call rest reply nofun fun _ => rfl
      | exists_ offset =>
          let reply (b : Option Condition) := CursorReply.flag ((b.map fun c => c.exists? offset).getD false)
          exact confined_quiet_call rest reply nofun fun _ => rfl
      | length =>
          let reply (b : Option Condition) := CursorReply.count ((b.map Condition.length).getD 0)
          exact confined_quiet_call rest reply nofun fun _ => rfl
      | isEmpty =>
          let reply (b : Option Condition) := CursorReply.flag ((b.map Condition.length).getD 0 == 0)
          exact confined_quiet_call rest reply nofun fun _ => rfl
      | combinator =>
          let reply (b : Option Condition) := CursorReply.combinator ((b.map Condition.combinator).getD .and)
          exact confined_quiet_call rest reply nofun fun _ => rfl
      | depth => exact confined_quiet_call rest (fun _ => .count path.length) nofun fun _ => rfl
      | query => exact confined_done [Except.ok CursorReply.done]

-- A cursor into a draft holds a draft, whatever is done through it.
theorem call_all_holds {P : Draft → Prop} (kept : Draft.Kept P) (calls : List CursorCall) (k : Cursor)
    (holds : k.anchor.Holds P) : (Cursor.callAll calls k).2.anchor.Holds P := by
  induction calls generalizing k with
  | nil => exact holds
  | cons c cs ih =>
      have called := cursor_call_holds kept c k holds
      simp only [Run.after] at called
      simp only [Cursor.callAll]
      cases result : Cursor.call c k with
      | error e k' =>
          rw [result] at called
          exact called
      | ok r k' =>
          rw [result] at called
          cases c with
          | query => exact called
          | _ => exact ih k' called

-- So there is always a draft to give back.
theorem visit_held (slot : Slot) (path : List Nat) (calls : List CursorCall) (unheld other d : Draft) :
    visit slot path calls unheld d = visit slot path calls other d := by
  have kept : Draft.Kept fun _ => True := by constructor <;> intros <;> trivial
  obtain ⟨left, slot', attached, -⟩ := call_all_holds kept calls ⟨.attached d slot, path⟩ ⟨d, slot, rfl, trivial⟩
  simp only [visit, Cursor.draft?, attached]
  rfl

theorem confined_root (slot : Slot) (calls : List CursorCall) :
    Confined [slot.aspect] fun d => BuilderCall.run d (.through (.root slot) calls) := by
  have member := List.mem_singleton_self slot.aspect
  let unheld := Draft.ofQuery (.empty .select)
  let opened (x : slot.aspect.Content) := slot.write ((slot.read x).getD (.empty .and)) x
  refine confined_look member (fun x d => visit slot [] calls unheld (d.replace (d.query.put slot.aspect (opened x))))
    (fun d => ?_) fun x => confined_put member (opened x) (confined_visit slot calls [] unheld)
  have written : d.query.openTree slot = d.query.put slot.aspect (opened (d.query.look slot.aspect)) := by
    simp only [opened, Query.openTree, Query.tree, slot.read_look, slot.write_put]
  rw [← written]
  exact visit_held slot [] calls d unheld (d.replace (d.query.openTree slot))

-- A cursor that is opened in a new group is one that is opened at the root and goes down first.
theorem group_run (d : Draft) (slot : Slot) (combinator : Combinator) (calls : List CursorCall) :
    BuilderCall.run d (.through (.group slot combinator) calls) =
      ((BuilderCall.run d (.through (.root slot) (.descend combinator :: calls))).1.tail,
        (BuilderCall.run d (.through (.root slot) (.descend combinator :: calls))).2) := by
  obtain ⟨k, descended⟩ : ∃ k, Cursor.descend combinator (.atRoot d slot) = .ok () k := ⟨_, rfl⟩
  simp only [BuilderCall.run, Opening.cursor, Cursor.inBranch, Cursor.callAll, Cursor.call, descended]
  rfl

theorem confined_through (opening : Opening) (calls : List CursorCall) :
    Confined [opening.slot.aspect] fun d => BuilderCall.run d (.through opening calls) := by
  cases opening with
  | root slot => exact confined_root slot calls
  | group slot combinator =>
      rw [funext fun d => group_run d slot combinator calls]
      exact confined_map List.tail (confined_root slot (.descend combinator :: calls))

theorem builder_call_confined (c : BuilderCall) : Confined c.aspects fun d => c.run d := by
  cases c with
  | plain c =>
      exact confined_map (fun answer => [answer.map fun _ => CursorReply.done])
        (confined_changes c.changes (changes_about c))
  | through opening calls => exact confined_through opening calls

theorem independent_calls_commute (d : Draft) (c other : BuilderCall) :
    (∀ a, a ∉ c.aspects → (c.run d).2.query.look a = d.query.look a) ∧
    ((∀ a ∈ c.aspects, a ∉ other.aspects) →
      (other.run (c.run d).2).1 = (other.run d).1 ∧ (c.run (other.run d).2).1 = (c.run d).1 ∧
        (other.run (c.run d).2).2 = (c.run (other.run d).2).2) :=
  ⟨(builder_call_confined c).kept d,
    fun apart => confined_commute apart (builder_call_confined c) (builder_call_confined other) d⟩

-- An INSERT whose table is refused has set the kind, and a cursor that goes up from the root is lost.
theorem refused_insert_commutes_with_group :
    let d := (Start.ofTable .select "a").draft
    let insert := BuilderCall.plain (.insert (.text "b"))
    let group := BuilderCall.through (.group .where_ .or) [.add (.text "x = ?") [.int 1], .parent, .parent]
    (insert.run d).1 = [.error (.duplicateMainTable "b" "a")] ∧
    (group.run d).1 = [.ok .done, .ok .done, .error .noParent] ∧
    (group.run d).2.query.look .kind = .select ∧
    (∀ a ∈ insert.aspects, a ∉ group.aspects) ∧
    (group.run (insert.run d).2).1 = (group.run d).1 ∧ (insert.run (group.run d).2).1 = (insert.run d).1 ∧
      (group.run (insert.run d).2).2 = (insert.run (group.run d).2).2 := by
  intro d insert group
  have apart : ∀ a ∈ insert.aspects, a ∉ group.aspects := by decide
  have kind : (group.run d).2.query.look .kind = .select := (independent_calls_commute d group insert).1 .kind (by decide)
  exact ⟨rfl, rfl, kind, apart, (independent_calls_commute d insert group).2 apart⟩

end QueryBuilder

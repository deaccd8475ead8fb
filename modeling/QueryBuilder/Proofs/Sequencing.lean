import Mathlib.Data.List.Forall2
import QueryBuilder.Query.Statement

/-!
The lists of fragments that a statement is made of, each step as a bind: the head comes first, and
what follows it is not tried when it fails. What holds of each step holds of the list.
-/

set_option autoImplicit false

namespace QueryBuilder

-- A failure is one of those that may come up, and a result is a good one.
inductive Yields {α : Type} (fault : Error → Prop) (good : α → Prop) : Except Error α → Prop
  | error {e : Error} : fault e → Yields fault good (.error e)
  | ok {a : α} : good a → Yields fault good (.ok a)

section Yields

variable {α β : Type} {fault : Error → Prop} {good : α → Prop} {next : β → Prop} {r : Except Error α}

theorem yields_fault {e : Error} (yields : Yields fault good (.error e)) : fault e := by
  cases yields
  assumption

theorem yields_good {a : α} (yields : Yields fault good (.ok a)) : good a := by
  cases yields
  assumption

theorem fault_of_error {e : Error} (yields : Yields fault good r) (failed : r = .error e) : fault e := by
  rw [failed] at yields
  exact yields_fault yields

theorem good_of_ok {a : α} (yields : Yields fault good r) (made : r = .ok a) : good a := by
  rw [made] at yields
  exact yields_good yields

theorem yields_mono {other : α → Prop} (yields : Yields fault good r) (step : ∀ a, good a → other a) :
    Yields fault other r := by
  cases yields with
  | error allowed => exact .error allowed
  | ok holds => exact .ok (step _ holds)

theorem yields_weaken {other : Error → Prop} (yields : Yields fault good r) (step : ∀ e, fault e → other e) :
    Yields other good r := by
  cases yields with
  | error allowed => exact .error (step _ allowed)
  | ok holds => exact .ok holds

theorem yields_map {f : α → β} (yields : Yields fault good r) (step : ∀ a, good a → next (f a)) :
    Yields fault next (r.map f) := by
  cases yields with
  | error allowed => exact .error allowed
  | ok holds => exact .ok (step _ holds)

theorem yields_bind {f : α → Except Error β} (yields : Yields fault good r)
    (step : ∀ a, r = .ok a → good a → Yields fault next (f a)) : Yields fault next (r.bind f) := by
  cases yields with
  | error allowed => exact .error allowed
  | ok holds => exact step _ rfl holds

theorem yields_cons {rs : Except Error (List α)} (head : Yields fault good r)
    (tail : Yields fault (fun as => ∀ a ∈ as, good a) rs) :
    Yields fault (fun as => ∀ a ∈ as, good a) (r.bind fun a => rs.map fun as => a :: as) := by
  refine yields_bind head fun a _ first => yields_map tail fun as rest b member => ?_
  rcases List.mem_cons.mp member with rfl | later
  · exact first
  · exact rest b later

end Yields

-- Both fail with one error, or both succeed with related results.
inductive Agree {α β : Type} (rel : α → β → Prop) : Except Error α → Except Error β → Prop
  | error (e : Error) : Agree rel (.error e) (.error e)
  | ok {a : α} {b : β} : rel a b → Agree rel (.ok a) (.ok b)

theorem agree_cases {α β : Type} {rel : α → β → Prop} {r : Except Error α} {s : Except Error β} (agree : Agree rel r s) :
    (∃ e, r = .error e ∧ s = .error e) ∨ ∃ a b, r = .ok a ∧ s = .ok b ∧ rel a b := by
  cases agree with
  | error e => exact .inl ⟨e, rfl, rfl⟩
  | ok related => exact .inr ⟨_, _, rfl, rfl, related⟩

theorem agree_refl {α : Type} {rel : α → α → Prop} (r : Except Error α) (refl : ∀ a, rel a a) : Agree rel r r := by
  cases r with
  | error e => exact .error e
  | ok a => exact .ok (refl a)

theorem agree_map {α β γ δ : Type} {rel : α → β → Prop} {next : γ → δ → Prop} {r : Except Error α}
    {s : Except Error β} {f : α → γ} {g : β → δ} (agree : Agree rel r s)
    (step : ∀ a b, rel a b → next (f a) (g b)) : Agree next (r.map f) (s.map g) := by
  cases agree with
  | error e => exact .error e
  | ok related => exact .ok (step _ _ related)

theorem agree_bind {α β γ δ : Type} {rel : α → β → Prop} {next : γ → δ → Prop} {r : Except Error α}
    {s : Except Error β} {f : α → Except Error γ} {g : β → Except Error δ} (agree : Agree rel r s)
    (step : ∀ a b, r = .ok a → rel a b → Agree next (f a) (g b)) : Agree next (r.bind f) (s.bind g) := by
  cases agree with
  | error e => exact .error e
  | ok related => exact step _ _ rfl related

theorem agree_cons {α β : Type} {rel : α → β → Prop} {r : Except Error α} {s : Except Error β}
    {rs : Except Error (List α)} {ss : Except Error (List β)} (head : Agree rel r s)
    (tail : Agree (List.Forall₂ rel) rs ss) :
    Agree (List.Forall₂ rel) (r.bind fun a => rs.map fun as => a :: as) (s.bind fun b => ss.map fun bs => b :: bs) :=
  agree_bind head fun _ _ _ first => agree_map tail fun _ _ rest => .cons first rest

theorem emit_solid_cons (wrap : Bool) (n : Node) (ns : List Node) :
    emitSolid wrap (n :: ns) =
      if n.isBlank then emitSolid wrap ns
      else (n.emit wrap).bind fun f => (emitSolid wrap ns).map fun fs => f :: fs := by
  rw [emitSolid]
  split
  · rfl
  · cases n.emit wrap <;> rfl

theorem item_list_cons (item : SelectItem) (items : List SelectItem) :
    itemList (item :: items) = item.fragment.bind fun f => (itemList items).map fun fs => f :: fs := by
  rw [itemList]
  cases item.fragment <;> rfl

theorem assignments_cons (c : Cell) (cs : DataRow) :
    Query.assignments (c :: cs) = (Query.assignment c).bind fun f => (Query.assignments cs).map fun fs => f :: fs := by
  rw [Query.assignments]
  cases Query.assignment c <;> rfl

theorem parse_columns_cons (name : String) (names : List String) :
    parseColumns (name :: names) = (Ident.parse name).bind fun i => (parseColumns names).map fun is => i :: is := by
  rw [parseColumns]
  cases Ident.parse name <;> rfl

theorem clauses_cons (r : Except Error Fragment) (rs : List (Except Error Fragment)) :
    clauses (r :: rs) = r.bind fun f => (clauses rs).map fun g => f ++ g := by
  cases r <;> rfl

theorem clauses_cons_ok {r : Except Error Fragment} {rs : List (Except Error Fragment)} {f : Fragment}
    (made : clauses (r :: rs) = .ok f) : ∃ g h, r = .ok g ∧ clauses rs = .ok h ∧ f = g ++ h := by
  rw [clauses_cons] at made
  cases first : r with
  | error e =>
      rw [first] at made
      cases made
  | ok g =>
      rw [first] at made
      cases rest : clauses rs with
      | error e =>
          rw [rest] at made
          cases made
      | ok h =>
          rw [rest] at made
          cases made
          exact ⟨g, h, rfl, rfl, rfl⟩

theorem clauses_ok {rs : List (Except Error Fragment)} {f : Fragment} (made : clauses rs = .ok f) :
    ∃ gs, rs = gs.map .ok ∧ f = .concat gs := by
  induction rs generalizing f with
  | nil =>
      cases made
      exact ⟨[], rfl, rfl⟩
  | cons r rs ih =>
      obtain ⟨g, h, rfl, rest, rfl⟩ := clauses_cons_ok made
      obtain ⟨gs, rfl, rfl⟩ := ih rest
      exact ⟨g :: gs, rfl, rfl⟩

theorem inserted_clause_source {q source : Query} (found : q.source = some source) (table : Table)
    (text : Except Error Fragment) :
    q.insertedClause table (some text) =
      clauses [(q.sourceColumns source).map columnList, .ok (.literal " "), text.map .untagged] := by
  unfold Query.insertedClause
  rw [found]

theorem inserted_clause_rows {q : Query} (absent : q.source = none) (table : Table)
    (text : Option (Except Error Fragment)) :
    q.insertedClause table text =
      if q.rowsToInsert.isEmpty then .error (.noDataToInsert table.aliasName)
      else clauses [
        (parseColumns q.insertedNames).map columnList,
        .ok (.literal " VALUES" ++ .joinWith ", " (q.rowsToInsert.map (DataRow.tuple q.insertedNames)))] := by
  unfold Query.insertedClause
  rw [absent]

end QueryBuilder

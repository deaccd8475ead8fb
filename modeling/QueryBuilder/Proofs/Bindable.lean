import Mathlib
import QueryBuilder.Proofs.ParameterOrder
import QueryBuilder.Value.Serial
import QueryBuilder.Value.Wire

/-!
What reaches the driver.

Main statement: the numbering takes every array, fragment and sub-query apart, however deep it stands,
so that none of them is ever a parameter of a compiled query. Binding a parameter fails because its kind
cannot be bound only if it is a driver value whose own contents refuse that way, as a list does, and a
compiled query has a JSON form unless a parameter is a driver value.
-/

set_option autoImplicit false

namespace QueryBuilder

-- The ways to a compiled query.
inductive Compiled.Made : Compiled → Prop where
  | text {sql : String} {params : List Value} {c : Compiled} (numbered : number sql params = .ok c) : Made c
  | fragment {f : Fragment} {c : Compiled} (compiled : f.compile = .ok c) : Made c
  | condition {tree : Condition} {c : Compiled} (compiled : tree.compile = .ok c) : Made c
  | query {q : Query} {c : Compiled} (compiled : q.compile = .ok c) : Made c
  | draft {start : Start} {actions : List Action} {d : Draft} {c : Compiled}
      (reachable : d ∈ ((Session.begin start).run actions).drafts) (answered : Run.answer Draft.compile d = .ok c) :
      Made c

-- Whatever is compiled, a text of its own is numbered last.
theorem marker_form_numbered {r : Except Error Fragment} {c : Compiled} (compiled : r.bind Fragment.compile = .ok c) :
    ∃ sql params, number sql params = .ok c := by
  cases r with
  | error e => cases compiled
  | ok f => exact ⟨f.text, f.params, compiled⟩

theorem made_numbered {c : Compiled} (made : c.Made) : ∃ sql params, number sql params = .ok c := by
  cases made with
  | text numbered => exact ⟨_, _, numbered⟩
  | @fragment f _ compiled => exact ⟨f.text, f.params, compiled⟩
  | condition compiled => exact marker_form_numbered ((condition_compile_bind _).symm.trans compiled)
  | query compiled => exact marker_form_numbered ((query_compile_bind _).symm.trans compiled)
  | draft reachable answered =>
      rw [fresh_compile_answer _ (reachable_fresh reachable)] at answered
      exact marker_form_numbered ((query_compile_bind _).symm.trans answered)

theorem made_params_atoms {c : Compiled} (made : c.Made) : ∀ v ∈ c.params, v.isAtom = true := by
  obtain ⟨sql, params, numbered⟩ := made_numbered made
  rw [number_params_flat numbered]
  exact flat_all_atoms params

-- The encoders of the scalars refuse a type or a number, never a kind of value.
def BindFault.Scalar : BindFault → Prop
  | .outOfRange | .wrongType => True
  | .notBindable _ | .foreign _ => False

def Wire.Encodes (r : Except BindFault (Option Wire.Bytes)) : Prop :=
  ∀ fault, r = .error fault → fault.Scalar

namespace Wire

theorem encodes_ok (bytes : Option Bytes) : Encodes (.ok bytes) := by
  intro fault failed
  cases failed

theorem encodes_error {fault : BindFault} (scalar : fault.Scalar) : Encodes (.error fault) := by
  intro other failed
  cases failed
  exact scalar

theorem only_encodes (accepted : Bool) (bytes : Bytes) : Encodes (only accepted bytes) := by
  cases accepted with
  | false => exact encodes_error trivial
  | true => exact encodes_ok (some bytes)

theorem checked_encodes (width : Nat) (low high n : Int) : Encodes (checked width low high n) := by
  rw [checked]
  by_cases fits : low ≤ n ∧ n ≤ high
  · rw [if_pos fits]
    exact encodes_ok _
  · rw [if_neg fits]
    exact encodes_error trivial

theorem int_encodes (n : Int) (t : PgType) : Encodes (bindInt n t) := by
  cases t with
  | int2 | int4 | oid => exact checked_encodes _ _ _ _
  | int8 | float4 | float8 => exact encodes_ok _
  | _ => exact encodes_error trivial

theorem float_encodes (x : Double) (t : PgType) : Encodes (bindFloat x t) := by
  cases t with
  | float4 | float8 => exact encodes_ok _
  | _ => exact encodes_error trivial

theorem json_encodes (j : Json) (t : PgType) : Encodes (bindJson j t) := by
  cases t with
  | json | jsonb => exact encodes_ok _
  | _ => exact encodes_error trivial

end Wire

-- Of a driver value all that is known is that it is bound as what stands in it.
theorem atom_encodes {v : Value} (atom : v.isAtom = true) (t : PgType) :
    (∃ p, v = .param p ∧ v.bindTo t = p.bindTo t) ∨ (∀ p, v ≠ .param p) ∧ Wire.Encodes (v.bindTo t) := by
  cases v with
  | param p => exact .inl ⟨p, rfl, rfl⟩
  | null => exact .inr ⟨nofun, Wire.encodes_ok none⟩
  | int n => exact .inr ⟨nofun, Wire.int_encodes n.toInt t⟩
  | float x => exact .inr ⟨nofun, Wire.float_encodes x t⟩
  | json j => exact .inr ⟨nofun, Wire.json_encodes j t⟩
  | array | fragment | query => cases atom
  | _ => exact .inr ⟨nofun, Wire.only_encodes _ _⟩

-- A scalar is refused for its kind only by what stands in a driver value.
theorem atom_refused_iff {v : Value} (atom : v.isAtom = true) (t : PgType) (what : String) :
    v.bindTo t = .error (.notBindable what) ↔ ∃ p, v = .param p ∧ p.bindTo t = .error (.notBindable what) := by
  obtain ⟨p, rfl, bound⟩ | ⟨other, encodes⟩ := atom_encodes atom t
  · rw [bound]
    refine ⟨fun refused => ⟨p, rfl, refused⟩, ?_⟩
    rintro ⟨_, ⟨⟩, refused⟩
    exact refused
  · refine ⟨fun refused => (encodes _ refused).elim, ?_⟩
    rintro ⟨p, same, -⟩
    exact (other p same).elim

-- Of the scalars only a driver value has no JSON form.
theorem atom_to_json {v : Value} (atom : v.isAtom = true) :
    (∃ p, v = .param p ∧ v.toJson = .error ⟨"param"⟩) ∨ (∀ p, v ≠ .param p) ∧ ∃ j, v.toJson = .ok j := by
  cases v with
  | param p => exact .inl ⟨p, rfl, rfl⟩
  | array | fragment | query => cases atom
  | _ => exact .inr ⟨nofun, _, rfl⟩

-- The items of a list are written in order, up to the first that has no JSON form.
theorem json_items_cons (v : Value) (vs : List Value) :
    jsonItems (v :: vs) = v.toJson.bind fun j => (jsonItems vs).map fun js => j :: js := by
  rw [jsonItems]
  cases v.toJson <;> rfl

theorem json_items_of_atoms {vs : List Value} (atoms : ∀ v ∈ vs, v.isAtom = true) :
    ((∃ p, .param p ∈ vs) ∧ jsonItems vs = .error ⟨"param"⟩) ∨ (∀ p, .param p ∉ vs) ∧ ∃ js, jsonItems vs = .ok js := by
  induction vs with
  | nil => exact .inr ⟨nofun, [], rfl⟩
  | cons v vs ih =>
      rw [json_items_cons]
      obtain ⟨p, rfl, failed⟩ | ⟨first, j, written⟩ := atom_to_json (atoms v (by simp))
      · exact .inl ⟨⟨p, by simp⟩, by rw [failed]; rfl⟩
      · obtain ⟨⟨p, later⟩, failed⟩ | ⟨rest, js, all⟩ := ih fun w member => atoms w (by simp [member])
        · exact .inl ⟨⟨p, by simp [later]⟩, by rw [written, failed]; rfl⟩
        · refine .inr ⟨fun p member => ?_, j :: js, by rw [written, all]; rfl⟩
          rcases List.mem_cons.mp member with same | later
          · exact first p same.symm
          · exact rest p later

theorem compiled_to_json_of_atoms {c : Compiled} (atoms : ∀ v ∈ c.params, v.isAtom = true) :
    (∃ u, c.toJson = .error u) ↔ ∃ p, .param p ∈ c.params := by
  obtain ⟨held, failed⟩ | ⟨free, js, written⟩ := json_items_of_atoms atoms
  · refine ⟨fun _ => held, fun _ => ⟨⟨"param"⟩, ?_⟩⟩
    rw [Compiled.toJson, failed]
    rfl
  · constructor
    · rintro ⟨u, failed⟩
      rw [Compiled.toJson, written] at failed
      cases failed
    · rintro ⟨p, member⟩
      exact (free p member).elim

theorem compiled_params_bindable (c : Compiled) (made : c.Made) :
    (∀ v ∈ c.params, (∀ items, v ≠ .array items) ∧ (∀ f, v ≠ .fragment f) ∧ ∀ q, v ≠ .query q) ∧
    (∀ v ∈ c.params, ∀ t what, v.bindTo t = .error (.notBindable what) ↔
      ∃ p, v = .param p ∧ p.bindTo t = .error (.notBindable what)) ∧
    ((∃ u, c.toJson = .error u) ↔ ∃ p, .param p ∈ c.params) := by
  have atoms := made_params_atoms made
  refine ⟨fun v member => ?_, fun v member => atom_refused_iff (atoms v member), compiled_to_json_of_atoms atoms⟩
  have atom := atoms v member
  refine ⟨?_, ?_, ?_⟩ <;>
    · rintro inner rfl
      cases atom

-- The posts of a nested list but those that score above a function of a driver value.
def listedPosts : Query :=
  { Query.empty .select with
    items := [⟨none, .raw "id"⟩]
    tables := [⟨"posts", .name "posts", .main⟩]
    main := some "posts"
    whereTree := some ⟨.and, [.leaf "id IN (?)" [.array [.int 1, .array [.text "a", .null]]]]⟩ }

def exceptText : String :=
  "? EXCEPT SELECT id FROM posts WHERE score > ?"

def exceptParams (p : DriverValue) : List Value :=
  [.query listedPosts, .fragment ⟨"f(?, ?)", [.param p, .array [.bool true, .int 2]], none⟩]

def exceptForm (p : DriverValue) : Compiled where
  sql := "SELECT id FROM posts WHERE id IN ($1, $2, $3) EXCEPT SELECT id FROM posts WHERE score > f($4, $5, $6)"
  params := [.int 1, .text "a", .null, .param p, .bool true, .int 2]

-- Three, for the integer type of four bytes alone.
def int4Three : DriverValue :=
  ⟨7, fun t => Wire.only (t == .int4) (Wire.signed 4 3)⟩

theorem nested_params_bindable :
    let c := exceptForm int4Three
    number exceptText (exceptParams int4Three) = .ok c ∧
    (∀ v ∈ c.params, (∀ items, v ≠ .array items) ∧ (∀ f, v ≠ .fragment f) ∧ ∀ q, v ≠ .query q) ∧
    (∀ v ∈ c.params, ∀ t what, v.bindTo t = .error (.notBindable what) ↔
      ∃ p, v = .param p ∧ p.bindTo t = .error (.notBindable what)) ∧
    ((∃ u, c.toJson = .error u) ↔ ∃ p, .param p ∈ c.params) := by
  intro c
  have inner : listedPosts.toFragment =
      .ok ⟨"SELECT id FROM posts WHERE id IN (?)", [.array [.int 1, .array [.text "a", .null]]], none⟩ := by
    cbv
  have opening : exceptText.toList = '?' :: " EXCEPT SELECT id FROM posts WHERE score > ?".toList :=
    rfl
  have numbered : number exceptText (exceptParams int4Three) = .ok c := by
    rw [number, opening, exceptParams, number_text_marker, number_value_query, inner]
    cbv
  exact ⟨numbered, compiled_params_bindable c (.text numbered)⟩

-- A list is no row data as it is, but it is as a driver value.
def wrappedTags : DriverValue :=
  .ofValue 0 (.array [.int 1])

def taggedPosts : Draft :=
  .ofQuery { Query.ofTable .update "posts" with data := [⟨"tags", .param wrappedTags⟩] }

theorem wrapped_list_not_bindable :
    ¬ ∀ c : Compiled, c.Made → ∀ v ∈ c.params, ∀ t what, v.bindTo t ≠ .error (.notBindable what) := by
  intro bindable
  let actions := [Action.call 0 (.values [⟨"tags", .param wrappedTags⟩])]
  have made : ((Session.begin (.ofTable .update "posts")).run actions).drafts = [taggedPosts] := by
    cbv
  have reachable : taggedPosts ∈ ((Session.begin (.ofTable .update "posts")).run actions).drafts := made ▸ .head _
  have compiled : Run.answer Draft.compile taggedPosts = .ok ⟨"UPDATE posts SET tags = $1", [.param wrappedTags]⟩ := by
    cbv
  exact bindable _ (.draft reachable compiled) (.param wrappedTags) (List.mem_singleton.mpr rfl) .int8Array "array" rfl

end QueryBuilder

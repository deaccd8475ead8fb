import QueryBuilder.Proofs.AllFragments
import QueryBuilder.Proofs.Focus
import QueryBuilder.Proofs.Shares
import QueryBuilder.Proofs.TreeShapes

/-!
Nested values beside the same values written out by hand.

Main statement: a bound fragment compiles as the fragment appended, a bound array as the list of its
elements, and a condition that is a fragment as the text and the parameters of the fragment, wherever
in a tree it is added. What each of the two is put into sees its expansion alone.
-/

set_option autoImplicit false

namespace QueryBuilder

theorem expand_append {f g : Fragment} (balanced : f.Balanced) (apart : ¬ Meets f.text.toList g.text.toList) :
    expandText (f ++ g).text (f ++ g).params =
      (expandText f.text f.params).bind fun ps => (expandText g.text g.params).map fun qs => ps ++ qs := by
  have count : Marker.count f.text = f.params.length := balanced
  change expandText (f.text ++ g.text) (f.params ++ g.params) = _
  rw [expand_text_split apart, count, List.take_left, List.drop_left]

-- Fragments that are balanced and have one expansion, so that either may stand for the other.
structure Fragment.Interchangeable (f g : Fragment) : Prop where
  left : f.Balanced
  right : g.Balanced
  expand : expandText f.text f.params = expandText g.text g.params

theorem interchangeable_refl {f : Fragment} (balanced : f.Balanced) : f.Interchangeable f :=
  ⟨balanced, balanced, rfl⟩

theorem interchangeable_append {f g f' g' : Fragment} (first : f.Interchangeable f') (second : g.Interchangeable g')
    (apart : ¬ Meets f.text.toList g.text.toList) (apart' : ¬ Meets f'.text.toList g'.text.toList) :
    (f ++ g).Interchangeable (f' ++ g') := by
  refine ⟨balanced_append first.left second.left apart, balanced_append first.right second.right apart', ?_⟩
  rw [expand_append first.left apart, expand_append first.right apart', first.expand, second.expand]

theorem literal_balanced (text : String) : (Fragment.literal text).Balanced :=
  (silent_escape text).count

theorem interchangeable_before_literal {f g : Fragment} (same : f.Interchangeable g) (text : String) :
    (f ++ .literal text).Interchangeable (g ++ .literal text) :=
  interchangeable_append same (interchangeable_refl (literal_balanced text))
    (fun meets => (silent_escape text).led meets.2) (fun meets => (silent_escape text).led meets.2)

theorem interchangeable_behind_keyword {text : String} (keyword : Keyword text) {f g : Fragment}
    (same : f.Interchangeable g) : (Fragment.literal text ++ f).Interchangeable (.literal text ++ g) :=
  interchangeable_append (interchangeable_refl (literal_balanced text)) same (keyword_apart keyword _)
    (keyword_apart keyword _)

theorem interchangeable_compile {f g : Fragment} (same : f.Interchangeable g) :
    f.compile.toOption = g.compile.toOption := by
  rw [Fragment.compile, Fragment.compile, number_counts_expansion, number_counts_expansion, same.expand]

theorem hole_balanced (v : Value) : (Fragment.hole v).Balanced := by
  have one : Marker.count "?" = 1 := by decide
  exact one

theorem hole_expands (v : Value) : expandText (Fragment.hole v).text (Fragment.hole v).params = v.expand := by
  have chars : "?".toList = ['?'] := by decide
  rw [expandText, Fragment.hole, chars, expand_all_cons, expand_all_nil]
  cases v.expand with
  | none => rfl
  | some p => simp [fill]

-- The marker of a fragment gives way to what the fragment holds.
theorem hole_interchangeable {f : Fragment} (balanced : f.Balanced) :
    (Fragment.hole (.fragment f)).Interchangeable f := by
  refine ⟨hole_balanced _, balanced, ?_⟩
  rw [hole_expands, expand_fragment]

theorem expand_between {text : String} (keyword : Keyword text) {f g : Fragment} (left : f.Balanced) (right : g.Balanced) :
    (f ++ .literal text ++ g).Balanced ∧
      expandText (f ++ .literal text ++ g).text (f ++ .literal text ++ g).params =
        (expandText f.text f.params).bind fun ps =>
          (expandText g.text g.params).map fun qs => ps ++ literalPieces text ++ qs := by
  have seam := keyword_apart keyword g.text.toList
  have apart : ¬ Meets f.text.toList (.literal text ++ g : Fragment).text.toList :=
    fun meets => keyword_led keyword g meets.2
  have behind : expandText (.literal text ++ g : Fragment).text (.literal text ++ g : Fragment).params =
      (expandText g.text g.params).map fun qs => literalPieces text ++ qs := by
    rw [expand_append (literal_balanced text) seam]
    exact congrArg (fun r => Option.bind r _) (literal_expands text)
  rw [append_assoc]
  refine ⟨balanced_append left (balanced_append (literal_balanced text) right seam) apart, ?_⟩
  rw [expand_append left apart, behind]
  simp only [Option.map_map, Function.comp_def, List.append_assoc]

theorem interchangeable_between {text : String} (keyword : Keyword text) {f g f' g' : Fragment}
    (first : f.Interchangeable f') (second : g.Interchangeable g') :
    (f ++ .literal text ++ g).Interchangeable (f' ++ .literal text ++ g') := by
  obtain ⟨left, expands⟩ := expand_between keyword first.left second.left
  obtain ⟨right, expands'⟩ := expand_between keyword first.right second.right
  refine ⟨left, right, ?_⟩
  rw [expands, expands', first.expand, second.expand]

-- The markers of a list stand for what the one marker of an array gives way to.
theorem holes_expand (v : Value) (vs : List Value) :
    (Fragment.joinWith ", " ((v :: vs).map .hole)).Balanced ∧
      expandText (Fragment.joinWith ", " ((v :: vs).map .hole)).text (Fragment.joinWith ", " ((v :: vs).map .hole)).params =
        (expandAll (v :: vs)).map separated := by
  induction vs generalizing v with
  | nil =>
      refine ⟨hole_balanced v, (hole_expands v).trans ?_⟩
      rw [expand_all_cons, expand_all_nil]
      cases v.expand <;> rfl
  | cons w rest ih =>
      obtain ⟨balanced, expands⟩ := ih w
      obtain ⟨joined, both⟩ := expand_between (by decide : Keyword ", ") (hole_balanced v) balanced
      refine ⟨joined, both.trans ?_⟩
      rw [hole_expands, expands, expand_all_cons v]
      cases v.expand with
      | none => rfl
      | some p =>
          rw [expand_all_cons]
          cases w.expand <;> cases expandAll rest <;> rfl

theorem array_interchangeable {vs : List Value} (some : vs ≠ []) :
    (Fragment.hole (.array vs)).Interchangeable (.bindList vs) := by
  obtain ⟨v, rest, rfl⟩ := List.exists_cons_of_ne_nil some
  obtain ⟨balanced, expands⟩ := holes_expand v rest
  refine ⟨hole_balanced _, balanced, ?_⟩
  rw [hole_expands, expand_array]
  exact expands.symm

-- A leaf that holds a fragment, and the leaf that is written with its text and parameters.
inductive Inlined : String → List Value → String → List Value → Prop
  | same (text : String) (params : List Value) : Inlined text params text params
  | written {f : Fragment} : f.Balanced → Inlined "?" [.fragment f] f.text f.params

theorem leaf_balanced {text : String} {params : List Value} {f : Fragment} (made : leafFragment text params = .ok f) :
    f.Balanced := by
  have yields : Balances (Fragment.Sound (Value.Every fun _ => True)) (leafFragment text params) :=
    balances_leaf text fun v _ => value_every_of_all (fun _ => trivial) v
  exact (good_of_ok yields made).balanced

theorem inlined_congruence : TreeCongruence Inlined Fragment.Interchangeable where
  leaf := by
    intro s t vs ws inlined
    cases inlined with
    | same =>
        cases made : leafFragment s vs with
        | error e => exact .error e
        | ok f => exact .ok (interchangeable_refl (leaf_balanced made))
    | @written f balanced =>
        have same := hole_interchangeable balanced
        have nested : leafFragment "?" [.fragment f] = .ok (.hole (.fragment f)) := if_pos same.left
        have inlined : leafFragment f.text f.params = .ok f.untagged := if_pos balanced
        rw [nested, inlined]
        exact .ok ⟨same.left, same.right, same.expand⟩
  enclosed same := interchangeable_before_literal (interchangeable_behind_keyword (by decide) same) ")"
  joined k fs gs same := by
    have keyword : Keyword (" " ++ k.keyword ++ " ") := by cases k <;> decide
    induction same with
    | nil => exact interchangeable_refl rfl
    | cons head tail ih =>
        cases tail with
        | nil => exact head
        | cons => exact interchangeable_between keyword head ih

theorem matching_compile {c d : Condition} (shape : c.Matches Inlined d) : c.compile.toOption = d.compile.toOption := by
  have written : Agree Fragment.Interchangeable c.toFragment d.toFragment :=
    matching_emit inlined_congruence false c d shape
  rw [condition_compile_bind, condition_compile_bind]
  obtain ⟨e, failed, failed'⟩ | ⟨f, g, made, made', same⟩ := agree_cases written
  · rw [failed, failed']
  · rw [made, made']
    exact interchangeable_compile same

section Adding

variable {rel : String → List Value → String → List Value → Prop} (refl : ∀ s vs, rel s vs s vs)

include refl

theorem push_matches (c : Condition) {m n : Node} (same : m.Matches rel n) : (c.push m).Matches rel (c.push n) :=
  .mk c.combinator (List.rel_append (matches_all_refl refl c.children) (.cons same .nil))

theorem set_matches (ns : List Node) (i : Nat) {m n : Node} (same : m.Matches rel n) :
    List.Forall₂ (Node.Matches rel) (ns.set i m) (ns.set i n) := by
  induction ns generalizing i with
  | nil => exact .nil
  | cons k ns ih =>
      cases i with
      | zero => exact .cons same (matches_all_refl refl ns)
      | succ i => exact .cons (matches_node_refl refl k) (ih i)

-- Edits that leave matching branches leave matching trees, and miss the branch alike.
theorem edit_at_matches {α : Type} {f g : Condition → Except Error (α × Condition)}
    (each : ∀ b, Agree (fun p q => p.1 = q.1 ∧ p.2.Matches rel q.2) (f b) (g b)) (path : List Nat) (c : Condition) :
    Agree (fun p q => p.1 = q.1 ∧ p.2.Matches rel q.2) (c.editAt f path) (c.editAt g path) := by
  induction path generalizing c with
  | nil => exact each c
  | cons i path ih =>
      rw [Condition.editAt, Condition.editAt]
      cases c.children[i]? with
      | none => exact .error _
      | some n =>
          cases n with
          | leaf => exact .error _
          | branch b =>
              refine agree_map (ih b) fun p q same => ⟨same.1, ?_⟩
              exact .mk c.combinator (set_matches refl c.children i (.branch same.2))

theorem edit_matches {α : Type} {f g : Condition → Except Error (α × Condition)}
    (each : ∀ b, Agree (fun p q => p.1 = q.1 ∧ p.2.Matches rel q.2) (f b) (g b)) (k : Cursor) :
    Run.answer (Cursor.edit f) k = Run.answer (Cursor.edit g) k ∧
      (Run.after (Cursor.edit f) k).tree.Matches rel (Run.after (Cursor.edit g) k).tree := by
  have planted (a : Anchor) (c : Condition) : (a.put c).root = c := Anchor.root_of_root? (a.put_root c)
  simp only [Run.answer, Run.after, Cursor.edit]
  obtain ⟨e, failed, failed'⟩ | ⟨p, q, made, made', reply, same⟩ :=
    agree_cases (edit_at_matches refl each k.path k.anchor.opened.root)
  · rw [failed, failed']
    exact ⟨rfl, matches_refl refl _⟩
  · rw [made, made']
    refine ⟨congrArg Except.ok reply, ?_⟩
    rw [Cursor.tree, Cursor.tree, planted, planted]
    exact same

end Adding

theorem add_inlined {f : Fragment} (balanced : f.Balanced) (c : Condition) :
    (c.push (.leaf "?" [.fragment f])).Matches Inlined (c.push (.leaf f.text f.params)) :=
  push_matches Inlined.same c (.leaf (.written balanced))

theorem nested_compiles_as_inlined :
    (∀ s f : Fragment, s.Balanced → s.text.toList.getLast? ≠ some '\\' → f.Balanced →
      (s.pushBind (.fragment f)).compile.toOption = (s ++ f).compile.toOption) ∧
    (∀ (s : Fragment) (vs : List Value), s.Balanced → s.text.toList.getLast? ≠ some '\\' → vs ≠ [] →
      (s.pushBind (.array vs)).compile.toOption = (s.pushBindList vs).compile.toOption) ∧
    (∀ (c : Condition) (f : Fragment), f.Balanced → ∃ nested inlined : Condition,
      c.add (.fragment f) [] = .ok nested ∧ c.add (.text f.text) f.params = .ok inlined ∧
        nested.compile.toOption = inlined.compile.toOption) ∧
    ∀ (k : Cursor) (f : Fragment), f.Balanced →
      let nested := Cursor.call (.add (.fragment f) [])
      let inlined := Cursor.call (.add (.text f.text) f.params)
      Run.answer nested k = Run.answer inlined k ∧
        (Run.after nested k).tree.compile.toOption = (Run.after inlined k).tree.compile.toOption := by
  have appended {s f g : Fragment} (balanced : s.Balanced) (closed : s.text.toList.getLast? ≠ some '\\')
      (same : f.Interchangeable g) : (s ++ f).compile.toOption = (s ++ g).compile.toOption :=
    interchangeable_compile <| interchangeable_append (interchangeable_refl balanced) same
      (fun meets => closed meets.1) (fun meets => closed meets.1)
  refine ⟨fun s f balanced closed inner => ?_, fun s vs balanced closed some => ?_, fun c f balanced => ?_,
    fun k f balanced => ?_⟩
  · exact appended balanced closed (hole_interchangeable inner)
  · exact appended balanced closed (array_interchangeable some)
  · exact ⟨_, _, rfl, rfl, matching_compile (add_inlined balanced c)⟩
  · have each (b : Condition) : Agree (fun p q : CursorReply × Condition => p.1 = q.1 ∧ p.2.Matches Inlined q.2)
        ((b.add (.fragment f) []).map fun c => (.done, c)) ((b.add (.text f.text) f.params).map fun c => (.done, c)) :=
      .ok ⟨rfl, add_inlined balanced b⟩
    obtain ⟨answers, trees⟩ := edit_matches Inlined.same each k
    exact ⟨answers, matching_compile trees⟩

def loweredName : Fragment :=
  ⟨"name = ? OR id IN (?)", [.fragment ⟨"lower(?)", [.text "A"], none⟩, .array [.int 2, .int 3]], none⟩

def openSearch : Fragment :=
  ⟨"age > ? AND ", [.int 1], none⟩

-- A cursor in a group of a tree that has leaves of its own.
def groupCursor : Cursor :=
  ⟨.detached ⟨.and, [.leaf "age" [.int 1], .branch ⟨.or, [.leaf "note" [.null]]⟩]⟩, [1]⟩

theorem lowered_name_inlined :
    openSearch.Balanced ∧ openSearch.text.toList.getLast? ≠ some '\\' ∧ loweredName.Balanced ∧ loweredName.params ≠ [] ∧
    (openSearch.pushBind (.fragment loweredName)).compile.toOption =
      some ⟨"age > $1 AND name = lower($2) OR id IN ($3, $4)",
        [.int 1, .text "A", .int 2, .int 3]⟩ ∧
    (openSearch.pushBind (.array loweredName.params)).compile.toOption =
      some ⟨"age > $1 AND lower($2), $3, $4", [.int 1, .text "A", .int 2, .int 3]⟩ ∧
    (∃ nested, (Condition.empty .or).add (.fragment loweredName) [] = .ok nested ∧
      nested.compile.toOption = some ⟨"name = lower($1) OR id IN ($2, $3)", [.text "A", .int 2, .int 3]⟩) ∧
    (Run.after (Cursor.call (.add (.fragment loweredName) [])) groupCursor).tree.compile.toOption =
      some ⟨"(age = $1) AND ((note IS NULL) OR (name = lower($2) OR id IN ($3, $4)))",
        [.int 1, .text "A", .int 2, .int 3]⟩ := by
  obtain ⟨bound, listed, added, edited⟩ := nested_compiles_as_inlined
  have balanced : openSearch.Balanced := by
    decide
  have closed : openSearch.text.toList.getLast? ≠ some '\\' := by
    decide
  have inner : loweredName.Balanced := by
    decide
  have some : loweredName.params ≠ [] := by
    simp [loweredName]
  refine ⟨balanced, closed, inner, some, ?_, ?_, ?_, ?_⟩
  · rw [bound openSearch loweredName balanced closed inner]
    cbv
  · rw [listed openSearch loweredName.params balanced closed some]
    cbv
  · obtain ⟨nested, inlined, made, written, same⟩ := added (.empty .or) loweredName inner
    refine ⟨nested, made, ?_⟩
    cases written
    rw [same]
    cbv
  · rw [(edited groupCursor loweredName inner).2]
    cbv

end QueryBuilder

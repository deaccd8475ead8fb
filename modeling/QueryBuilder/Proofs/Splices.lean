import Mathlib.Algebra.Ring.Nat
import Mathlib.Data.List.Forall2
import QueryBuilder.Proofs.BalancedPieces

/-!
Fragments put together around others that are spliced in as they are.

Main statement: whatever is put together of pieces that have a parameter for each of their markers has
as many markers too many, or too few, as the fragments spliced into it have together; and around any
of these it comes apart where no backslash meets a marker.
-/

set_option autoImplicit false

namespace QueryBuilder

variable {good : Value → Prop} {fault : Error → Prop}

-- What is put together of sound pieces and of the listed fragments, which may be unbalanced.
inductive Assembled (good : Value → Prop) : List Fragment → Fragment → Prop
  | piece {f : Fragment} : f.Sound good → Assembled good [] f
  | splice {f : Fragment} : (∀ v ∈ f.params, good v) → Assembled good [f] f.untagged
  | append {fs gs : List Fragment} {f g : Fragment} : Assembled good fs f → Assembled good gs g →
      ¬ Meets f.text.toList g.text.toList → Assembled good (fs ++ gs) (f ++ g)

-- It may follow any text.
structure Clause (good : Value → Prop) (fs : List Fragment) (f : Fragment) : Prop where
  assembled : Assembled good fs f
  led : f.text.toList.head? ≠ some '?'

theorem clause_of_follows {f : Fragment} (follows : f.Follows good) : Clause good [] f :=
  ⟨.piece follows.toSound, follows.led⟩

theorem assembled_before {fs gs : List Fragment} {f g : Fragment} (left : Assembled good fs f)
    (right : Clause good gs g) : Assembled good (fs ++ gs) (f ++ g) :=
  .append left right.assembled fun meets => right.led meets.2

theorem clause_append {fs gs : List Fragment} {f g : Fragment} (left : Clause good fs f) (right : Clause good gs g) :
    Clause good (fs ++ gs) (f ++ g) :=
  ⟨assembled_before left.assembled right, led_append left.led right.led⟩

theorem clause_keyword {text : String} (keyword : Keyword text) {gs : List Fragment} {g : Fragment}
    (right : Assembled good gs g) : Clause good gs (Fragment.literal text ++ g) :=
  ⟨.append (.piece (follows_literal text).toSound) right (keyword_apart keyword _), keyword_led keyword g⟩

theorem assembled_between {fs gs : List Fragment} {f g : Fragment} {text : String} (keyword : Keyword text)
    (left : Assembled good fs f) (right : Assembled good gs g) :
    Assembled good (fs ++ gs) (f ++ Fragment.literal text ++ g) := by
  rw [append_assoc]
  exact assembled_before left (clause_keyword keyword right)

theorem assembled_params {fs : List Fragment} {f : Fragment} (assembled : Assembled good fs f) :
    ∀ v ∈ f.params, good v := by
  induction assembled with
  | piece sound => exact sound.params
  | splice params => exact params
  | append _ _ _ left right =>
      intro v member
      rw [Fragment.append_params, List.mem_append] at member
      exact member.elim (left v) (right v)

theorem assembled_untagged {fs : List Fragment} {f : Fragment} (assembled : Assembled good fs f) :
    Assembled good fs f.untagged := by
  induction assembled with
  | piece sound => exact .piece (sound_untagged sound)
  | splice params => exact .splice params
  | append _ _ apart left right => exact .append left right apart

def markers (fs : List Fragment) : Nat :=
  (fs.map fun f => Marker.count f.text).sum

def supplied (fs : List Fragment) : Nat :=
  (fs.map fun f => f.params.length).sum

theorem assembled_count {fs : List Fragment} {f : Fragment} (assembled : Assembled good fs f) :
    Marker.count f.text + supplied fs = f.params.length + markers fs := by
  induction assembled with
  | piece sound => exact sound.balanced
  | @splice f _ =>
      simp only [supplied, markers, List.map_cons, List.map_nil, List.sum_cons, List.sum_nil, Fragment.untagged]
      omega
  | @append fs gs f g _ _ apart left right =>
      have both : Marker.count (f ++ g).text = Marker.count f.text + Marker.count g.text := by
        simp only [Marker.count, append_text, count_append apart]
      simp only [supplied, markers, List.map_append, List.sum_append, both, Fragment.append_params,
        List.length_append] at left right ⊢
      omega

theorem balanced_sums {fs : List Fragment} (balanced : ∀ f ∈ fs, f.Balanced) : markers fs = supplied fs :=
  congrArg List.sum (List.map_congr_left balanced)

theorem sound_of_assembled {fs : List Fragment} {f : Fragment} (assembled : Assembled good fs f)
    (balanced : ∀ g ∈ fs, g.Balanced) : f.Sound good := by
  have count := assembled_count assembled
  have sums := balanced_sums balanced
  refine ⟨?_, assembled_params assembled⟩
  rw [Fragment.Balanced]
  omega

-- A fragment with one of those spliced into it between what comes before and what comes behind.
structure Fragment.Around (f a h b : Fragment) : Prop where
  text : f.text = a.text ++ (h.text ++ b.text)
  params : f.params = a.params ++ (h.params ++ b.params)
  before : ¬ Meets a.text.toList (h.text.toList ++ b.text.toList)
  behind : ¬ Meets (a.text.toList ++ h.text.toList) b.text.toList

theorem around_append_left {f a h b g : Fragment} (around : f.Around a h b)
    (apart : ¬ Meets f.text.toList g.text.toList) : (f ++ g).Around a h (b ++ g) := by
  have text : (f ++ g).text = f.text ++ g.text := rfl
  have tail : (b ++ g).text = b.text ++ g.text := rfl
  rw [around.text, String.toList_append, String.toList_append] at apart
  constructor
  · rw [text, tail, around.text, String.append_assoc, String.append_assoc]
  · rw [Fragment.append_params, Fragment.append_params, around.params, List.append_assoc, List.append_assoc]
  · rw [append_text, ← List.append_assoc]
    exact apart_before around.before apart
  · rw [append_text]
    rw [← List.append_assoc] at apart
    exact apart_before around.behind apart

theorem around_append_right {f a h b g : Fragment} (around : g.Around a h b)
    (apart : ¬ Meets f.text.toList g.text.toList) : (f ++ g).Around (f ++ a) h b := by
  have text : (f ++ g).text = f.text ++ g.text := rfl
  have init : (f ++ a).text = f.text ++ a.text := rfl
  rw [around.text, String.toList_append, String.toList_append] at apart
  constructor
  · rw [text, init, around.text, String.append_assoc]
  · rw [Fragment.append_params, Fragment.append_params, around.params, List.append_assoc]
  · rw [append_text]
    exact apart_behind around.before apart
  · rw [append_text, List.append_assoc]
    rw [← List.append_assoc] at apart
    exact apart_behind around.behind apart

theorem around_alone (h : Fragment) : h.untagged.Around .empty h .empty where
  text := by
    change h.text = "" ++ (h.text ++ "")
    rw [String.append_empty, String.empty_append]
  params := by
    change h.params = [] ++ (h.params ++ [])
    rw [List.append_nil, List.nil_append]
  before meets := by cases meets.1
  behind meets := by cases meets.2

-- A member of a joined list is in the second part or in the first.
theorem split_in_append {α : Type} {fs gs before after : List α} {h : α} (split : fs ++ gs = before ++ h :: after) :
    (∃ middle, before = fs ++ middle ∧ gs = middle ++ h :: after) ∨
      ∃ middle, fs = before ++ h :: middle ∧ after = middle ++ gs := by
  rcases List.append_eq_append_iff.mp split with second | ⟨middle, first, rest⟩
  · exact .inl second
  · cases middle with
    | nil => exact .inl ⟨[], by rw [first, List.append_nil, List.append_nil], rest.symm⟩
    | cons x middle =>
        cases rest
        exact .inr ⟨middle, first, rfl⟩

theorem assembled_around {fs : List Fragment} {f : Fragment} (assembled : Assembled good fs f)
    {before after : List Fragment} {h : Fragment} (split : fs = before ++ h :: after) :
    ∃ a b, Assembled good before a ∧ Assembled good after b ∧ f.Around a h b := by
  have nothing : Assembled good [] .empty := .piece follows_empty.toSound
  induction assembled generalizing before after with
  | piece sound => simp at split
  | @splice g params =>
      cases before with
      | nil =>
          cases split
          exact ⟨.empty, .empty, nothing, nothing, around_alone _⟩
      | cons x rest => simp at split
  | @append fs gs f g left right apart leftIh rightIh =>
      rcases split_in_append split with ⟨middle, rfl, second⟩ | ⟨middle, first, rfl⟩
      · obtain ⟨a, b, init, tail, around⟩ := rightIh second
        refine ⟨f ++ a, b, .append left init fun meets => ?_, tail, around_append_right around apart⟩
        rw [around.text, String.toList_append] at apart
        exact apart (meets_before meets)
      · obtain ⟨a, b, init, tail, around⟩ := leftIh first
        refine ⟨a, b ++ g, init, .append tail right fun meets => ?_, around_append_left around apart⟩
        rw [around.text, String.toList_append, String.toList_append, ← List.append_assoc] at apart
        exact apart (meets_behind meets)

theorem yields_clause {r : Except Error Fragment} (yields : Yields fault (Fragment.Follows good) r) :
    Yields fault (Clause good []) r :=
  yields_mono yields fun _ follows => clause_of_follows follows

theorem yields_piece {r : Except Error Fragment} (yields : Yields fault (Fragment.Sound good) r) :
    Yields fault (Assembled good []) r :=
  yields_mono yields fun _ sound => .piece sound

theorem yields_clause_list {fss : List (List Fragment)} {rs : List (Except Error Fragment)}
    (each : List.Forall₂ (fun fs r => Yields fault (Clause good fs) r) fss rs) :
    Yields fault (Clause good fss.flatten) (clauses rs) := by
  induction each with
  | nil => exact .ok (clause_of_follows follows_empty)
  | cons head _ ih =>
      rw [clauses_cons]
      exact yields_bind head fun f _ first => yields_map ih fun g others => clause_append first others

theorem yields_assembled_before {fs gs : List Fragment} {r : Except Error Fragment} {rs : List (Except Error Fragment)}
    (head : Yields fault (Assembled good fs) r) (rest : Yields fault (Clause good gs) (clauses rs)) :
    Yields fault (Assembled good (fs ++ gs)) (clauses (r :: rs)) := by
  rw [clauses_cons]
  exact yields_bind head fun f _ first => yields_map rest fun g others => assembled_before first others

theorem yields_clause_keyword {text : String} (keyword : Keyword text) {gs : List Fragment}
    {rs : List (Except Error Fragment)} (rest : Yields fault (Assembled good gs) (clauses rs)) :
    Yields fault (Clause good gs) (clauses (.ok (.literal text) :: rs)) := by
  rw [clauses_cons]
  exact yields_map rest fun g others => clause_keyword keyword others

theorem yields_assembled_between {text : String} (keyword : Keyword text) {fs gs : List Fragment} {f : Fragment}
    (left : Assembled good fs f) {rs : List (Except Error Fragment)}
    (rest : Yields fault (Assembled good gs) (clauses rs)) :
    Yields fault (Assembled good (fs ++ gs)) (clauses (.ok (f ++ .literal text) :: rs)) := by
  rw [clauses_cons]
  exact yields_map rest fun g others => assembled_between keyword left others

namespace Query

-- The fragments that are written before the statement; there are none before TRUNCATE.
def heading (q : Query) : List Fragment :=
  if q.kind = .truncate then [] else q.leading

-- The fragments that are written as they are, in the order of the text: those of the source of an
-- INSERT stand between its own.
def spliced (q : Query) : List Fragment :=
  match _found : q.source with
  | some source => q.heading ++ (if q.kind = .insert then source.spliced else []) ++ q.trailing
  | none => q.heading ++ q.trailing
termination_by sizeOf q
decreasing_by
  have fields := q.sizeOf_fields
  simp only [_found, Option.some.sizeOf_spec] at fields
  omega

theorem spliced_own {q : Query} (own : q.kind = .insert → q.source = none) : q.spliced = q.heading ++ q.trailing := by
  rw [spliced]
  split
  · rename_i source found
    have other : q.kind ≠ .insert := fun insert => by simp [own insert] at found
    rw [if_neg other, List.append_nil]
  · rfl

theorem spliced_insert {q source : Query} (insert : q.kind = .insert) (found : q.source = some source) :
    q.spliced = q.leading ++ source.spliced ++ q.trailing := by
  have heads : q.heading = q.leading := by
    rw [heading, insert]
    rfl
  rw [spliced]
  split
  · rename_i other same
    rw [found] at same
    cases same
    rw [if_pos insert, heads]
  · rename_i absent
    rw [found] at absent
    cases absent

theorem mem_heading {q : Query} {f : Fragment} (member : f ∈ q.heading) : f ∈ q.leading := by
  by_cases truncates : q.kind = .truncate
  · rw [heading, if_pos truncates] at member
    cases member
  · rwa [heading, if_neg truncates] at member

theorem mem_spliced {q : Query} {f : Fragment} (member : f ∈ q.spliced) :
    f ∈ q.leading ∨ f ∈ q.trailing ∨ ∃ source, q.source = some source ∧ f ∈ source.spliced := by
  rw [spliced] at member
  split at member
  · rename_i source found
    by_cases insert : q.kind = .insert
    · rw [if_pos insert] at member
      rcases List.mem_append.mp member with early | behind
      · rcases List.mem_append.mp early with before | inside
        · exact .inl (mem_heading before)
        · exact .inr (.inr ⟨source, found, inside⟩)
      · exact .inr (.inl behind)
    · rw [if_neg insert, List.append_nil] at member
      exact (List.mem_append.mp member).imp mem_heading .inl
  · exact (List.mem_append.mp member).imp mem_heading .inl

end Query

end QueryBuilder

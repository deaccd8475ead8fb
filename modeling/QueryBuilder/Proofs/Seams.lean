import QueryBuilder.Proofs.Identifiers
import QueryBuilder.Proofs.Sequencing
import QueryBuilder.Query.Size

/-!
Where two fragments meet.

Main statement: two fragments that have a parameter for each marker give one that has, when the
second is a clause that may follow any text, or when there is a keyword between them.
-/

set_option autoImplicit false

namespace QueryBuilder

def Fragment.Balanced (f : Fragment) : Prop :=
  Marker.count f.text = f.params.length

instance (f : Fragment) : Decidable f.Balanced :=
  inferInstanceAs (Decidable (Marker.count f.text = f.params.length))

structure Fragment.Sound (good : Value → Prop) (f : Fragment) : Prop where
  balanced : f.Balanced
  params : ∀ v ∈ f.params, good v

-- A fragment that no backslash before it can change: it starts with no question mark.
structure Fragment.Follows (good : Value → Prop) (f : Fragment) : Prop extends Fragment.Sound good f where
  led : f.text.toList.head? ≠ some '?'

-- A text of the library that stands in front of text which may start with a marker.
def Keyword (text : String) : Prop :=
  text ≠ "" ∧ text.toList.getLast? ≠ some '\\'

instance (text : String) : Decidable (Keyword text) :=
  inferInstanceAs (Decidable (text ≠ "" ∧ text.toList.getLast? ≠ some '\\'))

variable {good : Value → Prop} {fault : Error → Prop}

theorem append_text (f g : Fragment) : (f ++ g).text.toList = f.text.toList ++ g.text.toList :=
  String.toList_append

theorem balanced_append {f g : Fragment} (left : f.Balanced) (right : g.Balanced)
    (apart : ¬ Meets f.text.toList g.text.toList) : (f ++ g).Balanced := by
  unfold Fragment.Balanced Marker.count at *
  rw [append_text, count_append apart, left, right, Fragment.append_params, List.length_append]

theorem sound_append {f g : Fragment} (left : f.Sound good) (right : g.Sound good)
    (apart : ¬ Meets f.text.toList g.text.toList) : (f ++ g).Sound good := by
  refine ⟨balanced_append left.balanced right.balanced apart, fun v member => ?_⟩
  rw [Fragment.append_params, List.mem_append] at member
  exact member.elim (left.params v) (right.params v)

theorem sound_before {f g : Fragment} (left : f.Sound good) (right : g.Follows good) : (f ++ g).Sound good :=
  sound_append left right.toSound fun meets => right.led meets.2

theorem led_append {f g : Fragment} (left : f.text.toList.head? ≠ some '?') (right : g.text.toList.head? ≠ some '?') :
    (f ++ g).text.toList.head? ≠ some '?' := by
  rw [append_text]
  cases head : f.text.toList with
  | nil => exact right
  | cons c rest =>
      rw [head] at left
      exact left

theorem follows_append {f g : Fragment} (left : f.Follows good) (right : g.Follows good) : (f ++ g).Follows good :=
  ⟨sound_before left.toSound right, led_append left.led right.led⟩

theorem follows_of_silent {text : String} (silent : Silent text.toList) : (Fragment.ofText text).Follows good :=
  ⟨⟨silent.count, fun _ member => by cases member⟩, silent.led⟩

theorem follows_empty : Fragment.empty.Follows good :=
  follows_of_silent silent_nil

theorem follows_literal (text : String) : (Fragment.literal text).Follows good :=
  follows_of_silent (silent_escape text)

theorem follows_ident {i : Ident} (formed : i.WellFormed) : (Fragment.ident i).Follows good :=
  follows_of_silent (marker_form_silent formed)

theorem sound_hole {v : Value} (holds : good v) : (Fragment.hole v).Sound good := by
  have one : Marker.count "?" = 1 := by decide
  refine ⟨one, fun w member => ?_⟩
  rw [List.mem_singleton.mp member]
  exact holds

theorem append_assoc (f g h : Fragment) : f ++ g ++ h = f ++ (g ++ h) := by
  change Fragment.append (Fragment.append f g) h = Fragment.append f (Fragment.append g h)
  simp only [Fragment.append, String.append_assoc, List.append_assoc]
  cases f.tag <;> rfl

theorem empty_append (f : Fragment) : Fragment.empty ++ f = f := by
  obtain ⟨text, params, tag⟩ := f
  change Fragment.append _ _ = _
  simp [Fragment.append, Fragment.empty, Fragment.ofText]

theorem append_empty (f : Fragment) : f ++ Fragment.empty = f := by
  obtain ⟨text, params, tag⟩ := f
  change Fragment.append _ _ = _
  cases tag <;> simp [Fragment.append, Fragment.empty, Fragment.ofText]

theorem keyword_written {text : String} (keyword : Keyword text) :
    ∃ init c, (Fragment.literal text).text.toList = init ++ [c] ∧ c ≠ '\\' := by
  have written : (Fragment.literal text).text.toList = text.toList.flatMap Marker.escapeChar := String.toList_ofList
  have last := escape_last text.toList
  rw [← written] at last
  cases ends : text.toList.getLast? with
  | none => exact absurd (String.toList_eq_nil_iff.mp (List.getLast?_eq_none_iff.mp ends)) keyword.1
  | some c =>
      rw [ends] at last
      obtain ⟨init, split⟩ := List.getLast?_eq_some_iff.mp last
      exact ⟨init, c, split, fun backslash => keyword.2 (by rw [ends, backslash])⟩

theorem keyword_apart {text : String} (keyword : Keyword text) (after : List Char) :
    ¬ Meets (Fragment.literal text).text.toList after := by
  obtain ⟨init, c, written, closed⟩ := keyword_written keyword
  rintro ⟨backslash, -⟩
  rw [written, List.getLast?_concat] at backslash
  exact closed (Option.some.inj backslash)

theorem keyword_led {text : String} (keyword : Keyword text) (f : Fragment) :
    (Fragment.literal text ++ f).text.toList.head? ≠ some '?' := by
  obtain ⟨init, c, written, -⟩ := keyword_written keyword
  have led := (silent_escape text).led
  change (Fragment.literal text).text.toList.head? ≠ some '?' at led
  rw [append_text]
  rw [written] at led ⊢
  cases init <;> exact led

theorem follows_keyword {text : String} (keyword : Keyword text) {f : Fragment} (sound : f.Sound good) :
    (Fragment.literal text ++ f).Follows good :=
  ⟨sound_append (follows_literal text).toSound sound (keyword_apart keyword _), keyword_led keyword f⟩

theorem sound_between {f g : Fragment} {text : String} (keyword : Keyword text) (left : f.Sound good)
    (right : g.Sound good) : (f ++ Fragment.literal text ++ g).Sound good := by
  rw [append_assoc]
  exact sound_before left (follows_keyword keyword right)

theorem follows_between {f g : Fragment} {text : String} (keyword : Keyword text) (left : f.Follows good)
    (right : g.Sound good) : (f ++ Fragment.literal text ++ g).Follows good := by
  rw [append_assoc]
  exact follows_append left (follows_keyword keyword right)

theorem follows_parenthesized {f : Fragment} (sound : f.Sound good) : (parenthesized f).Follows good :=
  follows_append (follows_keyword (by decide) sound) (follows_literal ")")

theorem follows_concat {fs : List Fragment} (each : ∀ f ∈ fs, f.Follows good) : (Fragment.concat fs).Follows good := by
  induction fs with
  | nil => exact follows_empty
  | cons f rest ih => exact follows_append (each f (by simp)) (ih fun g member => each g (by simp [member]))

theorem sound_join_with {sep : String} (keyword : Keyword sep) {fs : List Fragment} (each : ∀ f ∈ fs, f.Sound good) :
    (Fragment.joinWith sep fs).Sound good := by
  fun_induction Fragment.joinWith sep fs with
  | case1 => exact follows_empty.toSound
  | case2 f => exact each f (by simp)
  | case3 f rest _ ih =>
      exact sound_between keyword (each f (by simp)) (ih fun g member => each g (List.mem_cons_of_mem _ member))

theorem sound_untagged {f : Fragment} (sound : f.Sound good) : f.untagged.Sound good :=
  ⟨sound.balanced, sound.params⟩

theorem yields_clauses {rs : List (Except Error Fragment)} (each : ∀ r ∈ rs, Yields fault (Fragment.Follows good) r) :
    Yields fault (Fragment.Follows good) (clauses rs) := by
  induction rs with
  | nil => exact .ok follows_empty
  | cons r rest ih =>
      rw [clauses_cons]
      refine yields_bind (each r (by simp)) fun f _ first => ?_
      exact yields_map (ih fun s member => each s (by simp [member])) fun g others => follows_append first others

end QueryBuilder

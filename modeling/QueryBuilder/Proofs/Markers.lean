import QueryBuilder.Fragment

/-!
Counting markers.

Main statement: the markers of two joined texts are those of the one and those of the other, unless
a backslash that ends the first meets a question mark that starts the second.
-/

set_option autoImplicit false

namespace QueryBuilder

-- A backslash with a question mark behind it is the only character that is not read alone.
def Escapes (c : Char) (rest : List Char) : Prop :=
  c = '\\' ∧ rest.head? = some '?'

def Meets (a b : List Char) : Prop :=
  a.getLast? = some '\\' ∧ b.head? = some '?'

theorem text_induct {P : List Char → Prop} (done : P []) (escape : ∀ rest, P rest → P ('\\' :: '?' :: rest))
    (marker : ∀ rest, P rest → P ('?' :: rest))
    (plain : ∀ c rest, c ≠ '?' → ¬ Escapes c rest → P rest → P (c :: rest)) (text : List Char) : P text := by
  fun_induction Marker.countChars text with
  | case1 => exact done
  | case2 rest ih => exact escape rest ih
  | case3 c rest alone ih =>
      by_cases isMarker : c = '?'
      · subst isMarker
        exact marker rest ih
      · refine plain c rest isMarker ?_ ih
        rintro ⟨backslash, next⟩
        cases rest with
        | nil => cases next
        | cons d tail => exact alone tail backslash (by rw [Option.some.inj next])

theorem count_marker (rest : List Char) : Marker.countChars ('?' :: rest) = Marker.countChars rest + 1 := by
  rw [Marker.countChars]
  · exact Nat.add_comm 1 _
  · intro _ isBackslash
    cases isBackslash

theorem count_plain {c : Char} {rest : List Char} (notMarker : c ≠ '?') (alone : ¬ Escapes c rest) :
    Marker.countChars (c :: rest) = Marker.countChars rest := by
  rw [Marker.countChars, if_neg notMarker, Nat.zero_add]
  intro tail backslash next
  exact alone ⟨backslash, by rw [next]; rfl⟩

theorem meets_cons {c : Char} {a b : List Char} (meets : Meets a b) : Meets (c :: a) b := by
  refine ⟨?_, meets.2⟩
  rw [List.getLast?_cons, meets.1]
  rfl

theorem alone_append {c : Char} {rest b : List Char} (alone : ¬ Escapes c rest) (apart : ¬ Meets (c :: rest) b) :
    ¬ Escapes c (rest ++ b) := by
  rintro ⟨backslash, next⟩
  cases rest with
  | nil => exact apart ⟨by rw [backslash]; rfl, next⟩
  | cons d tail => exact alone ⟨backslash, next⟩

theorem count_append {a b : List Char} (apart : ¬ Meets a b) :
    Marker.countChars (a ++ b) = Marker.countChars a + Marker.countChars b := by
  induction a using text_induct with
  | done => simp [Marker.countChars]
  | escape rest ih =>
      rw [List.cons_append, List.cons_append, Marker.countChars, Marker.countChars]
      exact ih fun meets => apart (meets_cons (meets_cons meets))
  | marker rest ih =>
      rw [List.cons_append, count_marker, count_marker, ih fun meets => apart (meets_cons meets)]
      omega
  | plain c rest notMarker alone ih =>
      rw [List.cons_append, count_plain notMarker (alone_append alone apart), count_plain notMarker alone]
      exact ih fun meets => apart (meets_cons meets)

theorem meets_behind {a b c : List Char} (meets : Meets b c) : Meets (a ++ b) c := by
  refine ⟨?_, meets.2⟩
  rw [List.getLast?_append, meets.1]
  rfl

theorem meets_before {a b c : List Char} (meets : Meets a b) : Meets a (b ++ c) := by
  refine ⟨meets.1, ?_⟩
  rw [List.head?_append, meets.2]
  rfl

theorem apart_before {a b c : List Char} (first : ¬ Meets a b) (second : ¬ Meets (a ++ b) c) : ¬ Meets a (b ++ c) := by
  cases b with
  | nil => rwa [List.append_nil] at second
  | cons d rest => exact fun meets => first ⟨meets.1, meets.2⟩

theorem apart_behind {a b c : List Char} (first : ¬ Meets b c) (second : ¬ Meets a (b ++ c)) : ¬ Meets (a ++ b) c := by
  rcases List.eq_nil_or_concat b with rfl | ⟨init, d, rfl⟩
  · rwa [List.append_nil]
  · refine fun meets => first ⟨?_, meets.2⟩
    have last := meets.1
    rw [List.concat_eq_append, ← List.append_assoc, List.getLast?_concat] at last
    rw [List.concat_eq_append, List.getLast?_concat, last]

-- A silent text adds no marker to any text it is put behind.
structure Silent (text : List Char) : Prop where
  count : Marker.countChars text = 0
  led : text.head? ≠ some '?'

theorem silent_nil : Silent [] :=
  ⟨rfl, by simp⟩

theorem silent_char {c : Char} (notMarker : c ≠ '?') : Silent [c] := by
  refine ⟨?_, by simpa using notMarker⟩
  rw [count_plain notMarker (fun escapes => by cases escapes.2)]
  rfl

theorem escape_no_marker {text : List Char} (none : '?' ∉ text) : text.flatMap Marker.escapeChar = text := by
  induction text with
  | nil => rfl
  | cons c rest ih =>
      simp only [List.mem_cons, not_or] at none
      simp [Marker.escapeChar, Ne.symm none.1, ih none.2]

-- Escaping only puts a character in front of another.
theorem escape_last (text : List Char) : (text.flatMap Marker.escapeChar).getLast? = text.getLast? := by
  rcases List.eq_nil_or_concat text with rfl | ⟨init, c, rfl⟩
  · rfl
  · have last : (Marker.escapeChar c).getLast? = some c := by
      by_cases marker : c = '?' <;> simp [Marker.escapeChar, marker]
    rw [List.concat_eq_append, List.flatMap_append, List.flatMap_singleton, List.getLast?_append, last,
      List.getLast?_concat]
    rfl

theorem silent_escaped_marker : Silent ['\\', '?'] :=
  ⟨rfl, by simp⟩

theorem silent_append {a b : List Char} (left : Silent a) (right : Silent b) : Silent (a ++ b) := by
  refine ⟨?_, ?_⟩
  · rw [count_append fun meets => right.led meets.2, left.count, right.count]
  · cases a with
    | nil => exact right.led
    | cons c rest => exact left.led

theorem silent_flat_map {α : Type} {f : α → List Char} {items : List α} (each : ∀ x ∈ items, Silent (f x)) :
    Silent (items.flatMap f) := by
  induction items with
  | nil => exact silent_nil
  | cons x rest ih =>
      rw [List.flatMap_cons]
      exact silent_append (each x (by simp)) (ih fun y member => each y (by simp [member]))

theorem silent_of_no_marker {text : List Char} (none : '?' ∉ text) : Silent text := by
  have pieces : Silent (text.flatMap fun c => [c]) :=
    silent_flat_map fun c member => silent_char fun isMarker => none (isMarker ▸ member)
  simpa using pieces

theorem silent_escape (text : String) : Silent (Marker.escape text).toList := by
  rw [Marker.escape, String.toList_ofList]
  refine silent_flat_map fun c _ => ?_
  unfold Marker.escapeChar
  split
  · exact silent_escaped_marker
  · rename_i notMarker
    exact silent_char notMarker

end QueryBuilder

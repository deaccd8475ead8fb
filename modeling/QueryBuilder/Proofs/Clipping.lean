import QueryBuilder.Monitor.Event

/-!
Texts cut to a budget of bytes.

Main statement: what is kept of a text is its longest front of whole characters that fits the budget, which
is the text itself when it fits and at most three bytes short of the budget otherwise. Stepping back
from the budget byte by byte to the nearest place between two characters keeps the same. An error
message is kept whole up to 512 bytes, and clipped to that budget and marked with dots above.
-/

set_option autoImplicit false

namespace QueryBuilder

namespace Text

structure LongestFront (text : String) (budget : Nat) (kept : String) : Prop where
  front : ∃ rest, text = kept ++ rest
  fits : kept.utf8ByteSize ≤ budget
  longest : ∀ other rest, text = other ++ rest → other.utf8ByteSize ≤ budget → ∃ more, kept = other ++ more

theorem fronts_meet {a b more more' : String} (left : a = b ++ more) (right : b = a ++ more') : a = b := by
  have sizeA := congrArg String.utf8ByteSize left
  have sizeB := congrArg String.utf8ByteSize right
  rw [String.utf8ByteSize_append] at sizeA sizeB
  have none : more = "" := String.utf8ByteSize_eq_zero_iff.mp (by omega)
  rw [left, none, String.append_empty]

section LongestFront

variable {text kept other : String} {budget : Nat}

theorem longest_front_whole (longest : LongestFront text budget kept) (whole : text.utf8ByteSize ≤ budget) :
    kept = text := by
  obtain ⟨rest, split⟩ := longest.front
  obtain ⟨more, grown⟩ := longest.longest text "" String.append_empty.symm whole
  exact fronts_meet grown split

-- The next character does not fit any more, and none has more than four bytes.
theorem longest_front_fills (longest : LongestFront text budget kept) (long : budget < text.utf8ByteSize) :
    budget ≤ kept.utf8ByteSize + 3 := by
  obtain ⟨rest, split⟩ := longest.front
  cases chars : rest.toList with
  | nil =>
      have none : rest = "" := String.toList_eq_nil_iff.mp chars
      have fits := longest.fits
      rw [split, none, String.append_empty] at long
      omega
  | cons c cs =>
      have next : text = kept ++ String.singleton c ++ String.ofList cs := by
        rw [split, ← String.ofList_toList (s := rest), chars, String.ofList_cons, String.append_assoc]
      have width := c.utf8Size_le_four
      refine Nat.le_of_not_lt fun short => ?_
      have room : (kept ++ String.singleton c).utf8ByteSize ≤ budget := by
        rw [String.utf8ByteSize_append, String.utf8ByteSize_singleton]
        omega
      obtain ⟨more, grown⟩ := longest.longest _ _ next room
      have sizes := congrArg String.utf8ByteSize grown
      rw [String.utf8ByteSize_append, String.utf8ByteSize_append, String.utf8ByteSize_singleton] at sizes
      have positive := c.utf8Size_pos
      omega

theorem longest_front_unique (first : LongestFront text budget kept) (second : LongestFront text budget other) :
    kept = other := by
  obtain ⟨rest, split⟩ := first.front
  obtain ⟨rest', split'⟩ := second.front
  obtain ⟨more, grown⟩ := first.longest other rest' split' second.fits
  obtain ⟨more', grown'⟩ := second.longest kept rest split first.fits
  exact fronts_meet grown grown'

end LongestFront

theorem byte_size_cons (c : Char) (cs : List Char) :
    (String.ofList (c :: cs)).utf8ByteSize = c.utf8Size + (String.ofList cs).utf8ByteSize := by
  rw [String.ofList_cons, String.utf8ByteSize_append, String.utf8ByteSize_singleton]

theorem clip_chars_front (budget : Nat) (cs : List Char) : clipChars budget cs <+: cs := by
  fun_induction clipChars budget cs with
  | case1 => exact List.nil_prefix
  | case2 budget c cs fits ih => exact (List.prefix_cons_inj c).mpr ih
  | case3 => exact List.nil_prefix

theorem clip_chars_fits (budget : Nat) (cs : List Char) :
    (String.ofList (clipChars budget cs)).utf8ByteSize ≤ budget := by
  fun_induction clipChars budget cs with
  | case1 => exact Nat.zero_le _
  | case2 budget c cs fits ih =>
      rw [byte_size_cons]
      omega
  | case3 => exact Nat.zero_le _

theorem clip_chars_longest {budget : Nat} {cs other : List Char} (front : other <+: cs)
    (fits : (String.ofList other).utf8ByteSize ≤ budget) : other <+: clipChars budget cs := by
  induction cs generalizing budget other with
  | nil =>
      rw [List.prefix_nil.mp front]
      exact List.nil_prefix
  | cons c cs ih =>
      cases other with
      | nil => exact List.nil_prefix
      | cons d other =>
          obtain ⟨rfl, later⟩ := List.cons_prefix_cons.mp front
          rw [byte_size_cons] at fits
          rw [clipChars, if_pos (by omega)]
          exact (List.prefix_cons_inj d).mpr (ih later (by omega))

theorem clip_longest_front (text : String) (budget : Nat) : LongestFront text budget (clip text budget) where
  front := by
    obtain ⟨rest, split⟩ := clip_chars_front budget text.toList
    refine ⟨String.ofList rest, ?_⟩
    rw [clip, ← String.ofList_append, split, String.ofList_toList]
  fits := clip_chars_fits budget text.toList
  longest other rest split fits := by
    have front : other.toList <+: text.toList := ⟨rest.toList, by rw [split, String.toList_append]⟩
    have small : (String.ofList other.toList).utf8ByteSize ≤ budget := by rwa [String.ofList_toList]
    obtain ⟨more, grown⟩ := clip_chars_longest front small
    refine ⟨String.ofList more, ?_⟩
    rw [clip, ← grown, String.ofList_append, String.ofList_toList]

-- Steps back from an offset in bytes to the nearest place between two characters.
def placeUpTo (text : String) : (offset : Nat) → text.Pos
  | 0 => text.startPos
  | n + 1 => if between : String.Pos.Raw.IsValid text ⟨n + 1⟩ then text.pos ⟨n + 1⟩ between else placeUpTo text n

def clipBackwards (text : String) (budget : Nat) : String :=
  if text.utf8ByteSize ≤ budget then text else (text.sliceTo (placeUpTo text budget)).copy

theorem place_up_to_le (text : String) (n : Nat) : (placeUpTo text n).offset.byteIdx ≤ n := by
  fun_induction placeUpTo text n with
  | case1 => exact Nat.le_refl 0
  | case2 n between => exact Nat.le_refl (n + 1)
  | case3 n inside ih => omega

-- No place between two characters is passed over on the way back.
theorem le_place_up_to {text : String} {n : Nat} {p : text.Pos} (before : p.offset.byteIdx ≤ n) :
    p ≤ placeUpTo text n := by
  fun_induction placeUpTo text n with
  | case1 => exact String.Pos.le_iff.mpr before
  | case2 n between => exact String.Pos.le_iff.mpr before
  | case3 n inside ih =>
      refine ih ?_
      have other : p.offset.byteIdx ≠ n + 1 := by
        intro here
        have valid := p.isValid
        rw [show p.offset = ⟨n + 1⟩ from String.Pos.Raw.ext here] at valid
        exact inside valid
      omega

theorem place_longest_front (text : String) (budget : Nat) :
    LongestFront text budget (text.sliceTo (placeUpTo text budget)).copy := by
  have splits := (placeUpTo text budget).splits
  refine ⟨⟨_, splits.eq_append⟩, ?_, fun other rest split fits => ?_⟩
  · have offset := congrArg String.Pos.Raw.byteIdx splits.offset_eq_rawEndPos
    rw [String.byteIdx_rawEndPos] at offset
    rw [← offset]
    exact place_up_to_le text budget
  · have between := String.Pos.splits_ofEqAppend split
    have before : (String.Pos.ofEqAppend split).offset.byteIdx ≤ budget := by
      rw [between.offset_eq_rawEndPos]
      exact fits
    obtain ⟨more, grown, -⟩ := (between.le_iff_exists_eq_append splits).mp (le_place_up_to before)
    exact ⟨more, grown⟩

theorem whole_longest_front {text : String} {budget : Nat} (whole : text.utf8ByteSize ≤ budget) :
    LongestFront text budget text :=
  ⟨⟨"", String.append_empty.symm⟩, whole, fun _ rest split _ => ⟨rest, split⟩⟩

theorem backwards_longest_front (text : String) (budget : Nat) : LongestFront text budget (clipBackwards text budget) := by
  by_cases whole : text.utf8ByteSize ≤ budget
  · rw [clipBackwards, if_pos whole]
    exact whole_longest_front whole
  · rw [clipBackwards, if_neg whole]
    exact place_longest_front text budget

end Text

open Text

theorem message_kept {message : String} (short : message.utf8ByteSize ≤ Outcome.errorBudget) :
    Outcome.ofMessage message = .error message :=
  if_pos short

theorem message_clipped {message : String} (long : Outcome.errorBudget < message.utf8ByteSize) :
    Outcome.ofMessage message = .error (clip message Outcome.errorBudget ++ "...") :=
  if_neg (Nat.not_le.mpr long)

theorem clipped_text_longest_front (text : String) (budget : Nat) (message : String) :
    LongestFront text budget (clip text budget) ∧
    (text.utf8ByteSize ≤ budget → clip text budget = text) ∧
    (budget < text.utf8ByteSize → budget ≤ (clip text budget).utf8ByteSize + 3) ∧
    clip text budget = clipBackwards text budget ∧
    (message.utf8ByteSize ≤ 512 → Outcome.ofMessage message = .error message) ∧
    (512 < message.utf8ByteSize → ∃ kept, LongestFront message 512 kept ∧
      Outcome.ofMessage message = .error (kept ++ "...") ∧ (kept ++ "...").utf8ByteSize ≤ 515) := by
  have longest := clip_longest_front text budget
  refine ⟨longest, longest_front_whole longest, longest_front_fills longest,
    longest_front_unique longest (backwards_longest_front text budget), message_kept, fun long => ?_⟩
  have kept := clip_longest_front message Outcome.errorBudget
  have dots : "...".utf8ByteSize = 3 := rfl
  refine ⟨_, kept, message_clipped long, ?_⟩
  rw [String.utf8ByteSize_append, dots]
  exact Nat.add_le_add_right kept.fits 3

-- The budget ends inside the second character.
example : clip "aé" 2 = "a" ∧ clipBackwards "aé" 2 = "a" := by decide

end QueryBuilder

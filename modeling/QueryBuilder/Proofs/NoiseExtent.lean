import Mathlib
import QueryBuilder.Proofs.LeadingNoise

/-!
How far the noise before a statement reaches.

Main statement: when no block comment before a statement begins with a slash or holds another opening, the
text opens with a word exactly when the word stands right behind some noise at the front of the text.
-/

set_option autoImplicit false

namespace QueryBuilder

namespace Text

-- No block comment before the statement is closed by the slash of its own body, and none opens in another one.
structure Untangled (text : List Char) : Prop where
  untorn : ∀ noise rest, (∀ p ∈ noise, p.Formed) → text ≠ noiseText noise ++ '/' :: '*' :: '/' :: rest
  unnested : ∀ noise body rest, (∀ p ∈ noise, p.Formed) →
    text = noiseText noise ++ '/' :: '*' :: (body ++ '*' :: '/' :: rest) → ¬ ['*', '/'] <:+: body → ¬ ['/', '*'] <:+: body

-- The word is the first thing behind some noise.
def LedBy (word : String) (text : List Char) : Prop :=
  ∃ noise rest, (∀ p ∈ noise, p.Formed) ∧ text = noiseText noise ++ rest ∧ startsWithWord word.toList rest

theorem noise_text_cons (p : NoisePiece) (noise : List NoisePiece) (rest : List Char) :
    noiseText (p :: noise) ++ rest = p.text ++ (noiseText noise ++ rest) :=
  List.append_assoc _ _ _

theorem untangled_behind {p : NoisePiece} {rest : List Char} (formed : p.Formed) (untangled : Untangled (p.text ++ rest)) :
    Untangled rest where
  untorn noise after all split := by
    refine untangled.untorn (p :: noise) after (List.forall_mem_cons.mpr ⟨formed, all⟩) ?_
    rw [noise_text_cons, split]
  unnested noise body after all split unclosed := by
    refine untangled.unnested (p :: noise) body after (List.forall_mem_cons.mpr ⟨formed, all⟩) ?_ unclosed
    rw [noise_text_cons, split]

theorem untangled_whole {noise : List NoisePiece} {rest : List Char} (formed : ∀ p ∈ noise, p.Formed)
    (untangled : Untangled (noiseText noise ++ rest)) : ∀ p ∈ noise, ¬ p.Torn := by
  intro p member torn
  obtain ⟨before, after, rfl⟩ := List.append_of_mem member
  cases p with
  | blank | opening | line => cases torn
  | block body =>
      obtain ⟨body, rfl⟩ := List.head?_eq_some_iff.mp torn
      refine untangled.untorn before (body ++ '*' :: '/' :: (noiseText after ++ rest)) ?_ ?_
      · exact fun q earlier => formed q (List.mem_append_left _ earlier)
      · simp [noiseText, NoisePiece.text]

-- A walk that comes out of a line comment has passed the end of its line.
theorem line_ends {text : List Char} (kept : dropNoiseFrom .line text ≠ []) :
    ∃ inside rest, text = inside ++ '\n' :: rest ∧ '\n' ∉ inside ∧ dropNoiseFrom .line text = dropNoise rest := by
  induction text with
  | nil => exact absurd rfl kept
  | cons c text ih =>
      by_cases ends : c = '\n'
      · subst ends
        exact ⟨[], text, rfl, List.not_mem_nil, rfl⟩
      · have goes : dropNoiseFrom .line (c :: text) = dropNoiseFrom .line text := by
          rw [dropNoiseFrom, if_neg ends]
        rw [goes] at kept ⊢
        obtain ⟨inside, rest, rfl, single, left⟩ := ih kept
        refine ⟨c :: inside, rest, rfl, ?_, left⟩
        rw [List.mem_cons, not_or]
        exact ⟨Ne.symm ends, single⟩

theorem block_ends {text : List Char} (kept : dropNoiseFrom .block text ≠ []) :
    ∃ inside rest, text = inside ++ '*' :: '/' :: rest ∧ ¬ ['*', '/'] <:+: inside ∧
      dropNoiseFrom .block text = dropNoise rest := by
  induction text with
  | nil => exact absurd rfl kept
  | cons c text ih =>
      by_cases ends : c = '*' ∧ text.head? = some '/'
      · obtain ⟨rfl, slash⟩ := ends
        obtain ⟨rest, rfl⟩ := List.head?_eq_some_iff.mp slash
        exact ⟨[], rest, rfl, by simp, rfl⟩
      · have goes : dropNoiseFrom .block (c :: text) = dropNoiseFrom .block text := by
          rw [dropNoiseFrom, if_neg ends]
        rw [goes] at kept ⊢
        obtain ⟨inside, rest, rfl, unclosed, left⟩ := ih kept
        refine ⟨c :: inside, rest, rfl, ?_, left⟩
        rw [List.infix_cons_iff, List.cons_prefix_cons, not_or]
        refine ⟨?_, unclosed⟩
        rintro ⟨rfl, tail, rfl⟩
        exact ends ⟨rfl, rfl⟩

-- The piece of noise that a walk over it begins with, unless it stops at once.
theorem first_piece {text : List Char} (untangled : Untangled text) (kept : dropNoise text ≠ []) :
    dropNoise text = text ∨ ∃ p rest, NoisePiece.Formed p ∧ text = p.text ++ rest ∧ dropNoise text = dropNoise rest := by
  cases text with
  | nil => exact .inl rfl
  | cons c text =>
      by_cases line : c = '-' ∧ text.head? = some '-'
      · obtain ⟨rfl, hyphen⟩ := line
        obtain ⟨text, rfl⟩ := List.head?_eq_some_iff.mp hyphen
        -- the second hyphen is read inside the comment
        have inside : dropNoise ('-' :: '-' :: text) = dropNoiseFrom .line text := rfl
        rw [inside] at kept ⊢
        obtain ⟨comment, rest, rfl, single, left⟩ := line_ends kept
        exact .inr ⟨.line comment, rest, single, (NoisePiece.line_text_append comment rest).symm, left⟩
      · by_cases block : c = '/' ∧ text.head? = some '*'
        · obtain ⟨rfl, star⟩ := block
          obtain ⟨text, rfl⟩ := List.head?_eq_some_iff.mp star
          have inside : dropNoise ('/' :: '*' :: text) = dropNoiseFrom .block ('*' :: text) := rfl
          rw [inside] at kept ⊢
          obtain ⟨comment, rest, split, unclosed, left⟩ := block_ends kept
          cases comment with
          | nil =>
              -- the star of the opening would close the comment
              cases split
              exact absurd rfl (untangled.untorn [] rest (by simp))
          | cons d comment =>
              cases split
              have whole : ¬ ['*', '/'] <:+: comment := fun closed => unclosed (List.infix_cons closed)
              have unopened := untangled.unnested [] comment rest (by simp) rfl whole
              exact .inr ⟨.block comment, rest, ⟨unopened, whole⟩, (NoisePiece.block_text_append comment rest).symm, left⟩
        · by_cases skipped : isBlank c || c == '('
          · have left := blank_dropped skipped text
            rcases Bool.or_eq_true_iff.mp skipped with blank | paren
            · exact .inr ⟨.blank c, text, blank, rfl, left⟩
            · cases beq_iff_eq.mp paren
              exact .inr ⟨.opening, text, trivial, rfl, left⟩
          · refine .inl ?_
            rw [dropNoise, dropNoiseFrom, if_neg line, if_neg block, if_neg skipped]

theorem noise_before {text : List Char} (untangled : Untangled text) (kept : dropNoise text ≠ []) :
    ∃ noise, (∀ p ∈ noise, NoisePiece.Formed p) ∧ text = noiseText noise ++ dropNoise text := by
  induction size : text.length using Nat.strong_induction_on generalizing text with
  | _ length ih =>
      rcases first_piece untangled kept with same | ⟨p, rest, formed, rfl, left⟩
      · exact ⟨[], by simp, same.symm⟩
      · have shorter : rest.length < length := by
          have positive : 0 < p.text.length := by
            cases p <;> simp [NoisePiece.text]
          rw [List.length_append] at size
          omega
        rw [left] at kept ⊢
        obtain ⟨noise, all, split⟩ := ih rest.length shorter (untangled_behind formed untangled) kept rfl
        refine ⟨p :: noise, List.forall_mem_cons.mpr ⟨formed, all⟩, ?_⟩
        rw [noise_text_cons, ← split]

theorem same_letter_alpha {a b : Char} (same : sameLetter a b) : a.isAlpha = b.isAlpha := by
  rw [← Char.isLower_toLower_eq_isAlpha, beq_iff_eq.mp same, Char.isLower_toLower_eq_isAlpha]

-- What begins with a word begins with a letter, and no noise does.
theorem word_kept {word : List Char} {w : Char} (first : word.head? = some w) (letter : w.isAlpha) {text : List Char}
    (starts : startsWithWord word text) : dropNoise text = text := by
  obtain ⟨ws, rfl⟩ := List.head?_eq_some_iff.mp first
  cases text with
  | nil => rfl
  | cons c text =>
      have same := (Bool.and_eq_true_iff.mp starts).1
      exact letter_kept ((same_letter_alpha same).symm.trans letter) text

-- No noise begins with a letter, so there is no comment before one.
theorem letter_before {c : Char} (letter : c.isAlpha) {noise : List NoisePiece} (formed : ∀ p ∈ noise, p.Formed)
    (text rest : List Char) : c :: text ≠ noiseText noise ++ '/' :: rest := by
  intro split
  cases noise with
  | nil =>
      cases split
      cases letter
  | cons p noise =>
      rw [noise_text_cons] at split
      cases p with
      | blank d =>
          cases split
          have blank : isBlank c := formed (.blank c) List.mem_cons_self
          rw [letter_not_blank letter] at blank
          cases blank
      | opening | line | block =>
          cases split
          cases letter

theorem untangled_letter {c : Char} (letter : c.isAlpha) (text : List Char) : Untangled (c :: text) where
  untorn _ _ formed split := letter_before letter formed text _ split
  unnested _ _ _ formed split := absurd split (letter_before letter formed text _)

theorem opens_with_iff {word : String} {w : Char} (first : word.toList.head? = some w) (letter : w.isAlpha)
    {text : List Char} (untangled : Untangled text) : opensWith word text = true ↔ LedBy word text := by
  constructor
  · intro opens
    have kept : dropNoise text ≠ [] := by
      intro nothing
      obtain ⟨ws, chars⟩ := List.head?_eq_some_iff.mp first
      rw [opensWith, nothing, chars] at opens
      cases opens
    obtain ⟨noise, formed, split⟩ := noise_before untangled kept
    exact ⟨noise, dropNoise text, formed, split, opens⟩
  · rintro ⟨noise, rest, formed, rfl, starts⟩
    rw [opensWith, noise_dropped formed (untangled_whole formed untangled), word_kept first letter starts]
    exact starts

end Text

end QueryBuilder

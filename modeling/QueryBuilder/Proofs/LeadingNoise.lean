import QueryBuilder.Monitor.Kind
import QueryBuilder.Proofs.IdentifierText

/-!
Noise in front of a statement.

Main statement: blanks, opening parentheses and comments in any order are dropped whole, and the kind of
the statement is told as if it stood alone. The exception is a block comment whose body begins with a
slash: that slash closes the comment with the star of its opening, and the rest of the body is read on.
-/

set_option autoImplicit false

namespace QueryBuilder

namespace Text

-- A piece of noise as it is written, each comment with what closes it.
inductive NoisePiece where
  | blank (c : Char)
  | opening
  | line (text : List Char)
  | block (body : List Char)

namespace NoisePiece

def text : NoisePiece → List Char
  | blank c => [c]
  | opening => ['(']
  | line text => '-' :: '-' :: (text ++ ['\n'])
  | block body => '/' :: '*' :: (body ++ ['*', '/'])

-- A line comment ends with its line; no block comment opens or closes inside another one.
def Formed : NoisePiece → Prop
  | blank c => isBlank c
  | opening => True
  | line text => '\n' ∉ text
  | block body => ¬ ['/', '*'] <:+: body ∧ ¬ ['*', '/'] <:+: body

def Torn : NoisePiece → Prop
  | block body => body.head? = some '/'
  | _ => False

theorem line_text_append (text rest : List Char) :
    (line text).text ++ rest = '-' :: '-' :: (text ++ '\n' :: rest) := by
  simp [NoisePiece.text]

theorem block_text_append (body rest : List Char) :
    (block body).text ++ rest = '/' :: '*' :: (body ++ '*' :: '/' :: rest) := by
  simp [NoisePiece.text]

instance : DecidablePred Formed
  | blank c => inferInstanceAs (Decidable (isBlank c))
  | opening => inferInstanceAs (Decidable True)
  | line text => inferInstanceAs (Decidable ('\n' ∉ text))
  | block body => inferInstanceAs (Decidable (¬ ['/', '*'] <:+: body ∧ ¬ ['*', '/'] <:+: body))

instance : DecidablePred Torn
  | block body => inferInstanceAs (Decidable (body.head? = some '/'))
  | blank _ | opening | line _ => inferInstanceAs (Decidable False)

end NoisePiece

def noiseText (noise : List NoisePiece) : List Char :=
  noise.flatMap NoisePiece.text

theorem blank_dropped {c : Char} (skipped : isBlank c || c == '(') (rest : List Char) :
    dropNoise (c :: rest) = dropNoise rest := by
  have other (d : Char) (kept : (isBlank d || d == '(') = false) : c ≠ d := by
    rintro rfl
    rw [kept] at skipped
    cases skipped
  rw [dropNoise, dropNoiseFrom, if_neg fun hyphen => other '-' rfl hyphen.1, if_neg fun slash => other '/' rfl slash.1,
    if_pos skipped]
  rfl

theorem line_dropped {text : List Char} (single : '\n' ∉ text) (rest : List Char) :
    dropNoiseFrom .line (text ++ '\n' :: rest) = dropNoise rest := by
  induction text with
  | nil => rfl
  | cons c text ih =>
      rw [List.mem_cons, not_or] at single
      rw [List.cons_append, dropNoiseFrom, if_neg (Ne.symm single.1)]
      exact ih single.2

-- What is inside may end in a star: no slash follows that star before the one that closes.
theorem block_dropped {inside : List Char} (unclosed : ¬ ['*', '/'] <:+: inside) (rest : List Char) :
    dropNoiseFrom .block (inside ++ '*' :: '/' :: rest) = dropNoise rest := by
  induction inside with
  | nil => rfl
  | cons c inside ih =>
      have early : ¬ (c = '*' ∧ (inside ++ '*' :: '/' :: rest).head? = some '/') := by
        rintro ⟨rfl, next⟩
        cases inside with
        | nil => cases next
        | cons d inside =>
            cases next
            exact unclosed ⟨[], inside, rfl⟩
      rw [List.cons_append, dropNoiseFrom, if_neg early]
      exact ih fun closed => unclosed (List.infix_cons closed)

-- The star of the opening closes nothing when no slash stands right behind it.
theorem opened_unclosed {body : List Char} (unclosed : ¬ ['*', '/'] <:+: body) (whole : body.head? ≠ some '/') :
    ¬ ['*', '/'] <:+: '*' :: body := by
  rw [List.infix_cons_iff, List.cons_prefix_cons, not_or]
  refine ⟨?_, unclosed⟩
  rintro ⟨-, tail, rfl⟩
  exact whole rfl

theorem piece_dropped {p : NoisePiece} (formed : p.Formed) (whole : ¬ p.Torn) (rest : List Char) :
    dropNoise (p.text ++ rest) = dropNoise rest := by
  cases p with
  | blank c => exact blank_dropped (Bool.or_eq_true_iff.mpr (.inl formed)) rest
  | opening => exact blank_dropped rfl rest
  | line text =>
      -- the second hyphen is read inside the comment
      have single : '\n' ∉ '-' :: text := by
        rw [List.mem_cons, not_or]
        exact ⟨by decide, formed⟩
      rw [NoisePiece.line_text_append]
      exact line_dropped single rest
  | block body =>
      rw [NoisePiece.block_text_append]
      exact block_dropped (opened_unclosed formed.2 whole) rest

theorem noise_dropped {noise : List NoisePiece} (formed : ∀ p ∈ noise, p.Formed) (whole : ∀ p ∈ noise, ¬ p.Torn)
    (rest : List Char) : dropNoise (noiseText noise ++ rest) = dropNoise rest := by
  induction noise with
  | nil => rfl
  | cons p noise ih =>
      rw [List.forall_mem_cons] at formed whole
      have split : noiseText (p :: noise) ++ rest = p.text ++ (noiseText noise ++ rest) := List.append_assoc _ _ _
      rw [split, piece_dropped formed.1 whole.1]
      exact ih formed.2 whole.2

theorem torn_dropped (body rest : List Char) :
    dropNoise ((NoisePiece.block ('/' :: body)).text ++ rest) = dropNoise (body ++ '*' :: '/' :: rest) := by
  rw [NoisePiece.block_text_append]
  rfl

theorem letter_not_blank {c : Char} (letter : c.isAlpha) : isBlank c = false := by
  have range : (65 ≤ c.toNat ∧ c.toNat ≤ 90) ∨ (97 ≤ c.toNat ∧ c.toNat ≤ 122) := (alpha_iff c).mp letter
  generalize code : c.toNat = n at range
  simp only [isBlank, code, Bool.or_eq_false_iff, Bool.and_eq_false_iff, decide_eq_false_iff_not, beq_eq_false_iff_ne]
  omega

theorem letter_kept {c : Char} (letter : c.isAlpha) (rest : List Char) : dropNoise (c :: rest) = c :: rest := by
  have other (d : Char) (mark : d.isAlpha = false) : c ≠ d := by
    rintro rfl
    rw [mark] at letter
    cases letter
  have kept : ¬ (isBlank c || c == '(') := by
    simp [letter_not_blank letter, other '(' rfl]
  rw [dropNoise, dropNoiseFrom, if_neg fun hyphen => other '-' rfl hyphen.1, if_neg fun slash => other '/' rfl slash.1,
    if_neg kept]

end Text

open Text

theorem StatementKind.of_sql_congr {a b : String} (same : dropNoise a.toList = dropNoise b.toList) :
    ofSql a = ofSql b := by
  rw [ofSql, ofSql, same]

theorem leading_noise_dropped {noise : List NoisePiece} {s : String} {c : Char} (formed : ∀ p ∈ noise, p.Formed)
    (starts : s.toList.head? = some c) (letter : c.isAlpha) :
    ((∀ p ∈ noise, ¬ p.Torn) →
      dropNoise (noiseText noise ++ s.toList) = s.toList ∧
        StatementKind.ofSql (String.ofList (noiseText noise) ++ s) = StatementKind.ofSql s) ∧
    ∀ before body after, noise = before ++ .block ('/' :: body) :: after → (∀ p ∈ before, ¬ p.Torn) →
      dropNoise (noiseText noise ++ s.toList) = dropNoise (body ++ '*' :: '/' :: (noiseText after ++ s.toList)) ∧
        StatementKind.ofSql (String.ofList (noiseText noise) ++ s)
          = StatementKind.ofSql (String.ofList (body ++ '*' :: '/' :: noiseText after) ++ s) := by
  obtain ⟨cs, stands⟩ := List.head?_eq_some_iff.mp starts
  constructor
  · intro whole
    have kept : dropNoise s.toList = s.toList := by
      rw [stands]
      exact letter_kept letter cs
    have dropped := noise_dropped formed whole s.toList
    refine ⟨dropped.trans kept, StatementKind.of_sql_congr ?_⟩
    rw [String.toList_append, String.toList_ofList]
    exact dropped
  · rintro before body after rfl whole
    have split : noiseText (before ++ .block ('/' :: body) :: after) ++ s.toList =
        noiseText before ++ ((NoisePiece.block ('/' :: body)).text ++ (noiseText after ++ s.toList)) := by
      simp [noiseText]
    have torn := noise_dropped (fun p member => formed p (List.mem_append_left _ member)) whole
      ((NoisePiece.block ('/' :: body)).text ++ (noiseText after ++ s.toList))
    rw [← split, torn_dropped] at torn
    refine ⟨torn, StatementKind.of_sql_congr ?_⟩
    simpa using torn

def mixedNoise : List NoisePiece :=
  [.blank ' ', .blank '\u2003', .opening, .line "a /* ( */".toList, .block "-- b *".toList, .block [], .opening]

def tornNoise : List NoisePiece :=
  mixedNoise ++ [.block "/ b".toList, .blank '\n']

theorem mixed_noise_dropped :
    (dropNoise (noiseText mixedNoise ++ "update t".toList) = "update t".toList ∧
      StatementKind.ofSql (String.ofList (noiseText mixedNoise) ++ "update t") = .update) ∧
    dropNoise (noiseText tornNoise ++ "update t".toList) = "b*/\nupdate t".toList := by
  constructor
  · exact (leading_noise_dropped (by decide +kernel) rfl rfl).1 (by decide)
  · exact ((leading_noise_dropped (by decide +kernel) rfl rfl).2 mixedNoise " b".toList [.blank '\n'] rfl (by decide)).1

-- The comment is `/*/ a */`.
theorem slash_tears_comment : ¬ ∀ (noise : List NoisePiece) (s : String) (c : Char), (∀ p ∈ noise, p.Formed) →
    s.toList.head? = some c → c.isAlpha →
      dropNoise (noiseText noise ++ s.toList) = s.toList ∧
        StatementKind.ofSql (String.ofList (noiseText noise) ++ s) = StatementKind.ofSql s := by
  intro whole
  have kept := (whole [.block "/ a ".toList, .blank ' '] "SELECT 1" 'S' (by decide) rfl rfl).1
  revert kept
  decide

end QueryBuilder

import Mathlib.Data.List.Forall2
import QueryBuilder.Proofs.Lexemes

/-!
How the text of a condition is read: parentheses first, then AND, then OR.

An atom is what stands between connectives, and only a pair of parentheses that is all of an operand
is gone into. So a negation, a comparison, a call or an `IN` list is one atom, whatever stands in its
own parentheses, and so is a sub-query.

Texts in parentheses with one connective between them are read as the connective of what each is
read as, wherever they stand.
-/

set_option autoImplicit false

namespace QueryBuilder

inductive Tree where
  | lexeme (chars : List Char)
  | connective (k : Combinator)
  | group (b : Bracket) (inner : List Tree)

namespace Tree

def isWord (word : List Char) : Tree → Bool
  | .lexeme chars => chars.map Char.toLower == word
  | _ => false

def isConnective (k : Combinator) : Tree → Bool
  | .connective j => j == k
  | _ => false

-- The AND of a BETWEEN that still waits for it is no connective.
def settle : (waiting : Nat) → List Tree → List Tree
  | _, [] => []
  | waiting + 1, .connective .and :: rest => .lexeme ['A', 'N', 'D'] :: settle waiting rest
  | waiting, t :: rest => t :: settle (if t.isWord "between".toList then waiting + 1 else waiting) rest

-- An expression has no SELECT but in parentheses of its own.
def isQuery (level : List Tree) : Bool :=
  level.any (isWord "select".toList)

end Tree

-- The brackets that are open, the last one first, each with what stands before it.
structure Nesting where
  outer : List (Bracket × List Tree)
  level : List Tree

namespace Nesting

def step (s : Nesting) : Token → Option Nesting
  | .lexeme chars => some ⟨s.outer, s.level ++ [.lexeme chars]⟩
  | .connective k => some ⟨s.outer, s.level ++ [.connective k]⟩
  | .opening b => some ⟨(b, s.level) :: s.outer, []⟩
  | .closing b =>
      match s.outer with
      | [] => none
      | (opened, before) :: outer =>
          if opened = b then some ⟨outer, before ++ [.group b (Tree.settle 0 s.level)]⟩ else none

def run (s : Nesting) (ts : List Token) : Option Nesting :=
  ts.foldlM step s

end Nesting

-- The trees of a text whose brackets match.
def treesOf (text : List Char) : Option (List Tree) :=
  (Lexer.tokens text).bind fun ts =>
    (Nesting.run ⟨[], []⟩ ts).bind fun s => if s.outer.isEmpty then some (Tree.settle 0 s.level) else none

inductive Formula where
  | atom (content : List Tree)
  | join (k : Combinator) (parts : List Formula)

-- A tree with what it is read as where it is all of an operand.
abbrev Operand := Tree × Option Formula

def readOperand : List Operand → Option Formula
  | [] => none
  | [(_, alone)] => alone
  | operands => some (.atom (operands.map Prod.fst))

def readJoin (k : Combinator) (read : List Operand → Option Formula) (level : List Operand) : Option Formula :=
  ((level.splitOnP fun t => t.1.isConnective k).mapM read).map (.join k)

def readOperands : List Operand → Option Formula :=
  readJoin .or (readJoin .and readOperand)

mutual
def Tree.alone : Tree → Option Formula
  | .group .round inner =>
      if Tree.isQuery inner then some (.atom [.group .round inner]) else readOperands (operandsOf inner)
  | t => some (.atom [t])
termination_by structural x => x

def operandsOf : List Tree → List Operand
  | [] => []
  | t :: rest => (t, t.alone) :: operandsOf rest
termination_by structural x => x
end

def readLevel (level : List Tree) : Option Formula :=
  if Tree.isQuery level then none else readOperands (operandsOf level)

def Formula.ofText (text : List Char) : Option Formula :=
  (treesOf text).bind readLevel

def Combinator.fold : Combinator → List Bool → Bool
  | .and, values => values.all id
  | .or, values => values.any id

mutual
def Formula.size : Formula → Nat
  | .atom _ => 1
  | .join _ parts => sizes parts
termination_by structural x => x

def sizes : List Formula → Nat
  | [] => 0
  | f :: rest => f.size + sizes rest
termination_by structural x => x
end

mutual
-- The value when each atom is as true as `truth` has it for its place, `k` for the first, and its content.
def Formula.eval (truth : Nat → List Tree → Bool) (k : Nat) : Formula → Bool
  | .atom content => truth k content
  | .join c parts => c.fold (evals truth k parts)
termination_by structural x => x

def evals (truth : Nat → List Tree → Bool) (k : Nat) : List Formula → List Bool
  | [] => []
  | f :: rest => f.eval truth k :: evals truth (k + f.size) rest
termination_by structural x => x
end

-- Two formulas that no truth of their atoms tells apart.
def Formula.Same (f g : Formula) : Prop :=
  f.size = g.size ∧ ∀ truth k, f.eval truth k = g.eval truth k

theorem same_refl (f : Formula) : f.Same f :=
  ⟨rfl, fun _ _ => rfl⟩

theorem same_symm {f g : Formula} (same : f.Same g) : g.Same f :=
  ⟨same.1.symm, fun truth k => (same.2 truth k).symm⟩

theorem same_trans {f g h : Formula} (first : f.Same g) (second : g.Same h) : f.Same h :=
  ⟨first.1.trans second.1, fun truth k => (first.2 truth k).trans (second.2 truth k)⟩

theorem same_parts {fs gs : List Formula} (each : List.Forall₂ Formula.Same fs gs) :
    sizes fs = sizes gs ∧ ∀ truth k, evals truth k fs = evals truth k gs := by
  induction each with
  | nil => exact ⟨rfl, fun _ _ => rfl⟩
  | cons head _ ih =>
      refine ⟨by rw [sizes, sizes, head.1, ih.1], fun truth k => ?_⟩
      rw [evals, evals, head.1, head.2, ih.2]

theorem same_join {fs gs : List Formula} (k : Combinator) (each : List.Forall₂ Formula.Same fs gs) :
    (Formula.join k fs).Same (.join k gs) := by
  obtain ⟨count, values⟩ := same_parts each
  refine ⟨by rw [Formula.size, Formula.size, count], fun truth i => ?_⟩
  rw [Formula.eval, Formula.eval, values]

theorem same_single (k : Combinator) (f : Formula) : (Formula.join k [f]).Same f := by
  refine ⟨by simp [Formula.size, sizes], fun truth i => ?_⟩
  cases k <;> simp [Formula.eval, evals, Combinator.fold]

-- The text comes to these trees, behind whatever stands before it at its level.
def Lays (text : List Char) (trees : List Tree) : Prop :=
  ∃ ts, Lexer.tokens text = some ts ∧
    ∀ before, Nesting.run ⟨[], before⟩ ts = some ⟨[], before ++ trees⟩

theorem step_within {s next : Nesting} {t : Token} (stepped : s.step t = some next)
    (around : List (Bracket × List Tree)) :
    Nesting.step ⟨s.outer ++ around, s.level⟩ t = some ⟨next.outer ++ around, next.level⟩ := by
  obtain ⟨outer, level⟩ := s
  cases t with
  | lexeme chars | connective k | opening b =>
      cases stepped
      rfl
  | closing b =>
      cases outer with
      | nil => cases stepped
      | cons frame outer =>
          obtain ⟨opened, before⟩ := frame
          simp only [Nesting.step, List.cons_append] at stepped ⊢
          by_cases same : opened = b
          · rw [if_pos same] at stepped ⊢
            cases stepped
            rfl
          · rw [if_neg same] at stepped
            cases stepped

theorem run_within {s last : Nesting} {ts : List Token} (ran : s.run ts = some last)
    (around : List (Bracket × List Tree)) :
    Nesting.run ⟨s.outer ++ around, s.level⟩ ts = some ⟨last.outer ++ around, last.level⟩ := by
  induction ts generalizing s with
  | nil =>
      cases ran
      rfl
  | cons t ts ih =>
      obtain ⟨next, stepped, rest⟩ := Option.bind_eq_some_iff.mp ran
      have onward := ih rest
      rw [Nesting.run, List.foldlM_cons, step_within stepped around]
      exact onward

theorem run_append {s mid : Nesting} {ts us : List Token} (first : s.run ts = some mid) :
    s.run (ts ++ us) = mid.run us := by
  rw [Nesting.run, List.foldlM_append]
  change (s.run ts).bind _ = _
  rw [first]
  rfl

theorem trees_of_lays {text : List Char} {trees : List Tree} (lays : Lays text trees) :
    treesOf text = some (Tree.settle 0 trees) := by
  obtain ⟨ts, read, ran⟩ := lays
  rw [treesOf, read, Option.bind_some, ran []]
  rfl

theorem lays_enclosed {text : List Char} {level : List Tree} (read : treesOf text = some level) :
    Lays ('(' :: (text ++ [')'])) [.group .round level] := by
  obtain ⟨ts, lexed, nested⟩ := Option.bind_eq_some_iff.mp read
  obtain ⟨last, ran, closed⟩ := Option.bind_eq_some_iff.mp nested
  obtain ⟨outer, inner⟩ := last
  cases outer with
  | cons frame outer => cases closed
  | nil =>
      cases closed
      refine ⟨_, Lexer.tokens_enclosed lexed, fun before => ?_⟩
      have within : Nesting.run ⟨[(.round, before)], []⟩ ts = some ⟨[(.round, before)], inner⟩ :=
        run_within ran [(.round, before)]
      have ended : Nesting.run ⟨[(.round, before)], []⟩ (ts ++ [.closing .round]) =
          some ⟨[], before ++ [.group .round (Tree.settle 0 inner)]⟩ := by
        rw [run_append within]
        rfl
      exact ended

theorem lays_linked {a b : List Char} {ts us : List Tree} (left : Lays a ts) (right : Lays b us) (k : Combinator) :
    Lays (a ++ ' ' :: (k.keyword.toList ++ ' ' :: b)) (ts ++ .connective k :: us) := by
  obtain ⟨first, readFirst, runFirst⟩ := left
  obtain ⟨second, readSecond, runSecond⟩ := right
  refine ⟨_, Lexer.tokens_linked readFirst readSecond k, fun before => ?_⟩
  have onward : Nesting.run ⟨[], before ++ ts⟩ (.connective k :: second) =
      Nesting.run ⟨[], before ++ ts ++ [.connective k]⟩ second := rfl
  rw [run_append (runFirst before), onward, runSecond]
  simp only [List.append_assoc, List.singleton_append]

-- Pairs of parentheses with one connective between them, and what each pair is read as.
inductive Linked (k : Combinator) : List Tree → List Formula → Prop
  | single {inner : List Tree} {f : Formula} : Tree.alone (.group .round inner) = some f →
      Linked k [.group .round inner] [f]
  | more {inner rest : List Tree} {f : Formula} {fs : List Formula} : Tree.alone (.group .round inner) = some f →
      Linked k rest fs → Linked k (.group .round inner :: .connective k :: rest) (f :: fs)

section Linked

variable {k : Combinator} {trees : List Tree} {fs : List Formula}

theorem settle_linked (linked : Linked k trees fs) : Tree.settle 0 trees = trees := by
  induction linked with
  | single _ => rfl
  | more _ _ ih =>
      rw [Tree.settle, Tree.settle]
      · exact congrArg (fun rest => _ :: _ :: rest) ih
      all_goals nofun

theorem linked_no_query (linked : Linked k trees fs) : Tree.isQuery trees = false := by
  induction linked with
  | single _ => rfl
  | more _ _ ih => exact ih

theorem linked_no_other {other : Combinator} (differs : k ≠ other) (linked : Linked k trees fs) :
    ∀ t ∈ operandsOf trees, t.1.isConnective other = false := by
  induction linked with
  | single _ => simp [operandsOf, Tree.isConnective]
  | more _ _ ih => simpa [operandsOf, Tree.isConnective, differs] using ih

theorem split_linked {read : List Operand → Option Formula} {g : Formula → Formula}
    (each : ∀ inner f, Tree.alone (.group .round inner) = some f →
      read [(.group .round inner, Tree.alone (.group .round inner))] = some (g f)) (linked : Linked k trees fs) :
    readJoin k read (operandsOf trees) = some (.join k (fs.map g)) := by
  have parts : ((operandsOf trees).splitOnP fun t => t.1.isConnective k).mapM read = some (fs.map g) := by
    induction linked with
    | @single inner f alone =>
        have whole := each _ f alone
        rw [operandsOf, operandsOf, List.splitOnP_eq_singleton (by simp [Tree.isConnective])]
        simp [whole]
    | @more inner rest f fs alone _ ih =>
        have first := each _ f alone
        let operand : Operand := (.group .round inner, Tree.alone (.group .round inner))
        let link : Operand := (.connective k, Tree.alone (.connective k))
        have before : ∀ t ∈ [operand], t.1.isConnective k = false := by simp [operand, Tree.isConnective]
        have apart := List.splitOnP_append_cons_of_forall_mem before link (by simp [link, Tree.isConnective])
          (operandsOf rest)
        rw [List.singleton_append] at apart
        rw [operandsOf, operandsOf, apart, List.mapM_cons, first, ih]
        rfl
  rw [readJoin, parts]
  rfl

theorem read_linked (linked : Linked k trees fs) : ∃ f, readLevel trees = some f ∧ f.Same (.join k fs) := by
  rw [readLevel, if_neg (by simp [linked_no_query linked]), readOperands]
  cases k with
  | and =>
      have whole : readJoin .and readOperand (operandsOf trees) = some (.join .and (fs.map id)) :=
        split_linked (fun _ _ alone => alone) linked
      have apart : ∀ t ∈ operandsOf trees, t.1.isConnective .or = false := linked_no_other (by decide) linked
      refine ⟨.join .or [.join .and (fs.map id)], ?_, ?_⟩
      · rw [readJoin, List.splitOnP_eq_singleton apart]
        simp [whole]
      · rw [List.map_id]
        exact same_single .or _
  | or =>
      have each (inner : List Tree) (f : Formula) (alone : Tree.alone (.group .round inner) = some f) :
          readJoin .and readOperand [(.group .round inner, Tree.alone (.group .round inner))] =
            some (.join .and [f]) := by
        rw [readJoin, List.splitOnP_eq_singleton (by simp [Tree.isConnective])]
        simp [readOperand, alone]
      refine ⟨_, split_linked each linked, same_join .or ?_⟩
      rw [List.forall₂_map_left_iff]
      exact List.forall₂_same.mpr fun f _ => same_single .and f

end Linked

-- A text that is read as a formula, up to what no truth of the atoms tells apart.
def Reads (text : List Char) (f : Formula) : Prop :=
  ∃ g, Formula.ofText text = some g ∧ g.Same f

def Encloses (text : List Char) (f : Formula) : Prop :=
  ∃ inner g, Lays text [.group .round inner] ∧ Tree.alone (.group .round inner) = some g ∧ g.Same f

theorem encloses_of_reads {text : List Char} {f : Formula} (reads : Reads text f) :
    Encloses ('(' :: (text ++ [')'])) f := by
  obtain ⟨g, read, same⟩ := reads
  obtain ⟨level, trees, leveled⟩ := Option.bind_eq_some_iff.mp read
  refine ⟨level, g, lays_enclosed trees, ?_, same⟩
  rw [readLevel] at leveled
  by_cases query : Tree.isQuery level
  · rw [if_pos query] at leveled
    cases leveled
  · rw [if_neg query] at leveled
    rw [Tree.alone, if_neg query]
    exact leveled

end QueryBuilder

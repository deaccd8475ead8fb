import Mathlib.Logic.Relation
import QueryBuilder.Proofs.Focus
import QueryBuilder.Proofs.Parenthesization

/-!
Groups that add nothing.

Main statement: a condition tree compiles to the same text and parameters, or fails with the same
error, when branches without leaves are put among its children and nodes are put into branches of
their own, at any depth and any number of times. What a node is written as inside a tree hangs on no
more than whether it is blank and what it emits, bare and wrapped.
-/

set_option autoImplicit false

namespace QueryBuilder

-- One step, in the branch that the frames lead to: a branch without leaves is put between two
-- children, or a child into a branch of its own. The root has no branch around it.
inductive Condition.Regroups : Condition → Condition → Prop
  | insert (frames : List Frame) (k : Combinator) (before after : List Node) (leafless : Condition) :
      leafless.leaves = [] →
      Condition.Regroups (plug frames ⟨k, before ++ after⟩) (plug frames ⟨k, before ++ .branch leafless :: after⟩)
  | enclose (frames : List Frame) (k l : Combinator) (before after : List Node) (n : Node) :
      Condition.Regroups (plug frames ⟨k, before ++ n :: after⟩) (plug frames ⟨k, before ++ .branch ⟨l, [n]⟩ :: after⟩)
  | encloseRoot (l : Combinator) (c : Condition) : Condition.Regroups c ⟨l, [.branch c]⟩

structure Node.WritesAs (m n : Node) : Prop where
  blank : m.isBlank = n.isBlank
  emit : ∀ wrap, m.emit wrap = n.emit wrap

-- Lists of children that the branch around them cannot tell apart.
structure WriteAs (ms ns : List Node) : Prop where
  count : solidCount ms = solidCount ns
  emit : ∀ wrap, emitSolid wrap ms = emitSolid wrap ns

theorem solid_count_cons (n : Node) (ns : List Node) :
    solidCount (n :: ns) = if n.isBlank then solidCount ns else solidCount ns + 1 := by
  rw [solidCount, List.filter_cons]
  by_cases blank : n.isBlank
  · simp [blank, solidCount]
  · simp [blank, solidCount]

theorem all_blank_count (ns : List Node) : allBlank ns = (solidCount ns == 0) := by
  rw [all_blank_formulas, ← solid_formulas_count]
  cases solidFormulas ns <;> rfl

section Children

variable {ms ns : List Node} {m n : Node}

theorem write_as_self (ns : List Node) : WriteAs ns ns :=
  ⟨rfl, fun _ => rfl⟩

theorem write_as_cons (head : m.WritesAs n) (tail : WriteAs ms ns) : WriteAs (m :: ms) (n :: ns) where
  count := by rw [solid_count_cons, solid_count_cons, head.blank, tail.count]
  emit wrap := by rw [emit_solid_cons, emit_solid_cons, head.blank, head.emit, tail.emit]

theorem write_as_blank (blank : n.isBlank) (ns : List Node) : WriteAs ns (n :: ns) where
  count := by rw [solid_count_cons, if_pos blank]
  emit wrap := by rw [emit_solid_cons, if_pos blank]

theorem write_as_behind (before : List Node) (alike : WriteAs ms ns) : WriteAs (before ++ ms) (before ++ ns) := by
  induction before with
  | nil => exact alike
  | cons n before ih => exact write_as_cons ⟨rfl, fun _ => rfl⟩ ih

theorem branch_writes_as (k : Combinator) (alike : WriteAs ms ns) : (Node.branch ⟨k, ms⟩).WritesAs (.branch ⟨k, ns⟩) where
  blank := by
    change allBlank ms = allBlank ns
    rw [all_blank_count, all_blank_count, alike.count]
  emit wrap := by
    simp only [Node.emit, Condition.emit, alike.count, alike.emit]

theorem single_solid (solid : ¬ n.isBlank) (others : allBlank ns) (l : Combinator) (wrap : Bool) :
    (⟨l, n :: ns⟩ : Condition).emit wrap = n.emit wrap := by
  have few : decide (1 < solidCount (n :: ns)) = false := by
    rw [all_blank_count, beq_iff_eq] at others
    rw [solid_count_cons, if_neg solid, others]
    rfl
  rw [Condition.emit, few, Bool.or_false, emit_solid_cons, if_neg solid, emit_all_blank others]
  cases n.emit wrap <;> rfl

-- A branch of a single child asks of it what is asked of the branch, and a blank one has nothing to ask.
theorem enclosed_writes_as (l : Combinator) (n : Node) : n.WritesAs (.branch ⟨l, [n]⟩) where
  blank := by
    change n.isBlank = (n.isBlank && true)
    rw [Bool.and_true]
  emit wrap := by
    rw [Node.emit]
    by_cases blank : n.isBlank
    · have whole : (⟨l, [n]⟩ : Condition).isBlank := by
        change (n.isBlank && true) = true
        rw [Bool.and_true, blank]
      rw [blank_emit whole]
      cases n with
      | leaf text params => cases blank
      | branch c => exact blank_emit blank wrap
    · exact (single_solid blank rfl l wrap).symm

end Children

theorem plug_writes_as (frames : List Frame) {b c : Condition} (alike : (Node.branch b).WritesAs (.branch c)) :
    (Node.branch (plug frames b)).WritesAs (.branch (plug frames c)) := by
  induction frames generalizing b c with
  | nil => exact alike
  | cons g outer ih =>
      exact ih (branch_writes_as g.combinator (write_as_behind g.before (write_as_cons alike (write_as_self g.after))))

theorem regroups_writes_as {c d : Condition} (step : c.Regroups d) : (Node.branch c).WritesAs (.branch d) := by
  cases step with
  | insert frames k before after leafless none =>
      have blank : (Node.branch leafless).isBlank := (blank_iff_no_leaves leafless).mpr none
      exact plug_writes_as frames (branch_writes_as k (write_as_behind before (write_as_blank blank after)))
  | enclose frames k l before after n =>
      have child := write_as_cons (enclosed_writes_as l n) (write_as_self after)
      exact plug_writes_as frames (branch_writes_as k (write_as_behind before child))
  | encloseRoot l => exact enclosed_writes_as l (.branch c)

theorem regrouped_writes_as {c d : Condition} (steps : Relation.ReflTransGen Condition.Regroups c d) :
    (Node.branch c).WritesAs (.branch d) := by
  induction steps with
  | refl => exact ⟨rfl, fun _ => rfl⟩
  | tail _ last ih =>
      have next := regroups_writes_as last
      exact ⟨ih.blank.trans next.blank, fun wrap => (ih.emit wrap).trans (next.emit wrap)⟩

theorem regrouping_changes_nothing (c d : Condition) (regrouped : Relation.ReflTransGen Condition.Regroups c d) :
    d.isBlank = c.isBlank ∧ d.toFragment = c.toFragment ∧ d.compile = c.compile := by
  have alike := regrouped_writes_as regrouped
  have same : d.toFragment = c.toFragment := (alike.emit false).symm
  exact ⟨alike.blank.symm, same, by rw [Condition.compile, Condition.compile, same]⟩

def plainChoice : Condition :=
  ⟨.and, [.leaf "a" [.int 1], .branch ⟨.or, [.leaf "b" [.null], .leaf "c" [.int 2]]⟩]⟩

-- A nest without leaves between the two alternatives, the second of them in a group, and a group around all.
def groupedChoice : Condition :=
  ⟨.or, [.branch ⟨.and, [.leaf "a" [.int 1], .branch ⟨.or, [.leaf "b" [.null],
    .branch ⟨.and, [.branch (.empty .or), .branch (.empty .and)]⟩, .branch ⟨.and, [.leaf "c" [.int 2]]⟩]⟩]⟩]⟩

theorem grouped_choice_changes_nothing :
    Relation.ReflTransGen Condition.Regroups plainChoice groupedChoice ∧
    plainChoice.toFragment = .ok ⟨"(a = ?) AND ((b IS NULL) OR (c = ?))", [.int 1, .int 2], none⟩ ∧
    groupedChoice.isBlank = plainChoice.isBlank ∧ groupedChoice.toFragment = plainChoice.toFragment ∧
    groupedChoice.compile = plainChoice.compile := by
  have regrouped : Relation.ReflTransGen Condition.Regroups plainChoice groupedChoice := by
    let inner : List Frame := [⟨.and, [.leaf "a" [.int 1]], []⟩]
    let nest : Condition := ⟨.and, [.branch (.empty .or), .branch (.empty .and)]⟩
    have inserted := Condition.Regroups.insert inner .or [.leaf "b" [.null]] [.leaf "c" [.int 2]] nest rfl
    have enclosed := Condition.Regroups.enclose inner .or .and [.leaf "b" [.null], .branch nest] [] (.leaf "c" [.int 2])
    exact ((Relation.ReflTransGen.single inserted).tail enclosed).tail (.encloseRoot .or _)
  have written : plainChoice.toFragment = .ok ⟨"(a = ?) AND ((b IS NULL) OR (c = ?))", [.int 1, .int 2], none⟩ := by
    cbv
  exact ⟨regrouped, written, regrouping_changes_nothing plainChoice groupedChoice regrouped⟩

end QueryBuilder

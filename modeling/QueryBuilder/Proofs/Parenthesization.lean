import QueryBuilder.Proofs.Reading
import QueryBuilder.Proofs.Seams

/-!
The parentheses of a condition tree keep its meaning.

Main statement: the text of a tree is read as the tree, each branch joining its children that are
not blank, for every truth of the atoms in it. Two or more operands are joined only when each of
them stands in parentheses, which is the one invariant that the walk over the tree needs.
-/

set_option autoImplicit false

namespace QueryBuilder

-- What the emitted text of a leaf is read as, if it is an expression.
def leafFormula (text : String) (params : List Value) : Option Formula :=
  (leafFragment text params).toOption.bind fun f => Formula.ofText f.text.toList

mutual
def Node.leaves : Node → List (String × List Value)
  | .leaf text params => [(text, params)]
  | .branch c => c.leaves
termination_by structural x => x

def Condition.leaves : Condition → List (String × List Value)
  | ⟨_, children⟩ => leavesOf children
termination_by structural x => x

def leavesOf : List Node → List (String × List Value)
  | [] => []
  | n :: ns => n.leaves ++ leavesOf ns
termination_by structural x => x
end

mutual
theorem node_blank_iff (n : Node) : n.isBlank ↔ n.leaves = [] := by
  match n with
  | .leaf text params => simp [Node.isBlank, Node.leaves]
  | .branch c => exact blank_iff_no_leaves c

theorem blank_iff_no_leaves (c : Condition) : c.isBlank ↔ c.leaves = [] := by
  match c with
  | ⟨k, children⟩ => exact all_blank_iff children

theorem all_blank_iff (ns : List Node) : allBlank ns ↔ leavesOf ns = [] := by
  match ns with
  | [] => simp [allBlank, leavesOf]
  | n :: ns =>
      rw [allBlank, leavesOf, Bool.and_eq_true, List.append_eq_nil_iff]
      exact and_congr (node_blank_iff n) (all_blank_iff ns)
end

def AllExpressions (leaves : List (String × List Value)) : Prop :=
  ∀ leaf ∈ leaves, (leafFormula leaf.1 leaf.2).isSome

mutual
-- The meaning of a tree; a leaf that is no expression has none of its own.
def Node.formula : Node → Formula
  | .leaf text params => (leafFormula text params).getD (.join .and [])
  | .branch c => c.formula
termination_by structural x => x

def Condition.formula : Condition → Formula
  | ⟨combinator, children⟩ => .join combinator (solidFormulas children)
termination_by structural x => x

def solidFormulas : List Node → List Formula
  | [] => []
  | n :: ns => if n.isBlank then solidFormulas ns else n.formula :: solidFormulas ns
termination_by structural x => x
end

theorem parenthesized_text (f : Fragment) : (parenthesized f).text.toList = '(' :: (f.text.toList ++ [')']) := by
  have opening : (Fragment.literal "(").text.toList = ['('] := by decide
  have closing : (Fragment.literal ")").text.toList = [')'] := by decide
  rw [parenthesized, append_text, append_text, opening, closing, List.singleton_append, List.cons_append]

theorem joined_text (k : Combinator) (f g : Fragment) (rest : List Fragment) :
    (Fragment.joinWith (" " ++ k.keyword ++ " ") (f :: g :: rest)).text.toList =
      f.text.toList ++ ' ' :: (k.keyword.toList ++
        ' ' :: (Fragment.joinWith (" " ++ k.keyword ++ " ") (g :: rest)).text.toList) := by
  have link : (Fragment.literal (" " ++ k.keyword ++ " ")).text.toList = ' ' :: (k.keyword.toList ++ [' ']) := by
    cases k <;> decide
  rw [Fragment.joinWith, append_text, append_text, link]
  · simp only [List.append_assoc, List.cons_append, List.nil_append]
  · nofun

theorem encloses_linked {k : Combinator} {parts : List Fragment} {fs : List Formula} (some : parts ≠ [])
    (each : List.Forall₂ (fun p f => Encloses p.text.toList f) parts fs) :
    ∃ trees gs, Lays (Fragment.joinWith (" " ++ k.keyword ++ " ") parts).text.toList trees ∧ Linked k trees gs ∧
      List.Forall₂ Formula.Same gs fs := by
  induction each with
  | nil => exact absurd rfl some
  | @cons p f parts fs head tail ih =>
      obtain ⟨inner, g, lays, alone, same⟩ := head
      cases parts with
      | nil =>
          cases tail
          exact ⟨_, _, lays, .single alone, .cons same .nil⟩
      | cons q parts =>
          obtain ⟨trees, gs, laid, linked, others⟩ := ih (by simp)
          refine ⟨_, _, ?_, .more alone linked, .cons same others⟩
          rw [joined_text]
          exact lays_linked lays laid k

theorem reads_joined {k : Combinator} {parts : List Fragment} {fs : List Formula} (some : parts ≠ [])
    (each : List.Forall₂ (fun p f => Encloses p.text.toList f) parts fs) :
    Reads (Fragment.joinWith (" " ++ k.keyword ++ " ") parts).text.toList (.join k fs) := by
  obtain ⟨trees, gs, lays, linked, same⟩ := encloses_linked (k := k) some each
  obtain ⟨g, read, joined⟩ := read_linked linked
  refine ⟨g, ?_, same_trans joined (same_join k same)⟩
  rw [Formula.ofText, trees_of_lays lays, settle_linked linked]
  exact read

-- How a part is to be read: as the formula, or as parentheses around it where the parts are wrapped.
def ReadsAs (wrap : Bool) (p : Fragment) (f : Formula) : Prop :=
  if wrap then Encloses p.text.toList f else Reads p.text.toList f

theorem reads_as_wrapped {wrap : Bool} {p : Fragment} {f : Formula} (reads : Reads p.text.toList f) :
    ReadsAs wrap (if wrap then parenthesized p else p) f := by
  cases wrap with
  | false => exact reads
  | true =>
      have enclosed := encloses_of_reads reads
      rw [← parenthesized_text] at enclosed
      exact enclosed

theorem reads_as_same {wrap : Bool} {p : Fragment} {f g : Formula} (reads : ReadsAs wrap p f) (same : f.Same g) :
    ReadsAs wrap p g := by
  cases wrap with
  | false =>
      obtain ⟨read, found, close⟩ := reads
      exact ⟨read, found, same_trans close same⟩
  | true =>
      obtain ⟨inner, read, lays, alone, close⟩ := reads
      exact ⟨inner, read, lays, alone, same_trans close same⟩

theorem solid_formulas_count (ns : List Node) : (solidFormulas ns).length = solidCount ns := by
  rw [solidCount]
  induction ns with
  | nil => rfl
  | cons n ns ih =>
      rw [solidFormulas, List.filter_cons]
      cases blank : n.isBlank with
      | false => simpa using ih
      | true => simpa using ih

theorem all_blank_formulas (ns : List Node) : allBlank ns = (solidFormulas ns).isEmpty := by
  induction ns with
  | nil => rfl
  | cons n ns ih =>
      rw [allBlank, solidFormulas]
      cases blank : n.isBlank with
      | false => rfl
      | true => exact ih

theorem emit_all_blank {wrap : Bool} {ns : List Node} (blank : allBlank ns) : emitSolid wrap ns = .ok [] := by
  induction ns with
  | nil => rfl
  | cons n ns ih =>
      rw [allBlank, Bool.and_eq_true] at blank
      rw [emit_solid_cons, if_pos blank.1]
      exact ih blank.2

-- A branch of one part passes on how that part is to be read; of more parts it needs each in parentheses.
theorem branch_reads {wrap many : Bool} {k : Combinator} {parts : List Fragment} {fs : List Formula}
    (several : many = decide (1 < fs.length)) (some : fs ≠ [])
    (each : List.Forall₂ (ReadsAs (wrap || many)) parts fs) :
    ReadsAs wrap (if many && wrap then parenthesized (.joinWith (" " ++ k.keyword ++ " ") parts)
      else .joinWith (" " ++ k.keyword ++ " ") parts) (.join k fs) := by
  cases each with
  | nil => exact absurd rfl some
  | @cons p f parts fs head tail =>
      cases tail with
      | nil =>
          have single : many = false := several
          rw [single, Bool.or_false] at head
          rw [single]
          exact reads_as_same head (same_symm (same_single k f))
      | @cons q g parts fs next tail =>
          have joined : many = true := by simp [several]
          subst joined
          rw [Bool.or_true] at head next tail
          exact reads_as_wrapped (reads_joined (by simp) (.cons head (.cons next tail)))

theorem leaf_reads {text : String} {params : List Value} (expression : (leafFormula text params).isSome) :
    Yields (fun _ => True) (fun p => Reads p.text.toList (Node.formula (.leaf text params)))
      (leafFragment text params) := by
  obtain ⟨f, found⟩ := Option.isSome_iff_exists.mp expression
  obtain ⟨p, completed, read⟩ := Option.bind_eq_some_iff.mp found
  cases made : leafFragment text params with
  | error e => exact .error trivial
  | ok q =>
      rw [made] at completed
      cases completed
      rw [Node.formula, found]
      exact .ok ⟨f, read, same_refl f⟩

mutual
theorem node_reads (wrap : Bool) (n : Node) (solid : ¬ n.isBlank) (expressions : AllExpressions n.leaves) :
    Yields (fun _ => True) (fun p => ReadsAs wrap p n.formula) (n.emit wrap) := by
  cases n with
  | leaf text params =>
      have leaf := leaf_reads (expressions _ (List.mem_singleton.mpr rfl))
      exact yields_map leaf fun p reads => reads_as_wrapped reads
  | branch c => exact condition_reads wrap c solid expressions

theorem condition_reads (wrap : Bool) (c : Condition) (solid : ¬ c.isBlank) (expressions : AllExpressions c.leaves) :
    Yields (fun _ => True) (fun p => ReadsAs wrap p c.formula) (c.emit wrap) := by
  obtain ⟨k, children⟩ := c
  have some : solidFormulas children ≠ [] := by
    intro none
    rw [Condition.isBlank, all_blank_formulas, none] at solid
    exact solid rfl
  rw [Condition.emit]
  apply yields_map (nodes_read _ children expressions)
  intro parts each
  exact branch_reads (by rw [solid_formulas_count]) some each

theorem nodes_read (wrap : Bool) (ns : List Node) (expressions : AllExpressions (leavesOf ns)) :
    Yields (fun _ => True) (fun parts => List.Forall₂ (ReadsAs wrap) parts (solidFormulas ns)) (emitSolid wrap ns) := by
  match ns with
  | [] => exact .ok .nil
  | n :: ns =>
      have here : AllExpressions n.leaves := fun leaf member => expressions leaf (List.mem_append_left _ member)
      have rest : AllExpressions (leavesOf ns) := fun leaf member => expressions leaf (List.mem_append_right _ member)
      have tail := nodes_read wrap ns rest
      rw [emit_solid_cons, solidFormulas]
      by_cases blank : n.isBlank
      · rw [if_pos blank, if_pos blank]
        exact tail
      · rw [if_neg blank, if_neg blank]
        have head := node_reads wrap n blank here
        exact yields_bind head fun p _ first => yields_map tail fun parts later => .cons first later
end

theorem blank_emit {c : Condition} (blank : c.isBlank) (wrap : Bool) : c.emit wrap = .ok .empty := by
  obtain ⟨k, children⟩ := c
  have none : allBlank children := blank
  have few : decide (1 < solidCount children) = false := by
    rw [all_blank_formulas, List.isEmpty_iff] at none
    rw [← solid_formulas_count, none]
    rfl
  rw [Condition.emit, few, emit_all_blank none]
  rfl

theorem blank_text {c : Condition} {p : Fragment} (blank : c.isBlank) (emitted : c.toFragment = .ok p) : p.text = "" := by
  rw [Condition.toFragment, blank_emit blank] at emitted
  cases emitted
  rfl

theorem condition_text_keeps_meaning (c : Condition) (p : Fragment) (compiled : c.toFragment = .ok p)
    (expressions : AllExpressions c.leaves) :
    (c.isBlank → p.text = "") ∧
      (¬ c.isBlank → ∃ f, Formula.ofText p.text.toList = some f ∧
        ∀ truth, f.eval truth 0 = c.formula.eval truth 0) := by
  refine ⟨fun blank => blank_text blank compiled, fun solid => ?_⟩
  have walked := condition_reads false c solid expressions
  rw [show c.emit false = .ok p from compiled] at walked
  cases walked with
  | ok reads =>
      obtain ⟨f, read, same⟩ := reads
      exact ⟨f, read, fun truth => same.2 truth 0⟩

-- A disjunction in a leaf, a branch that is blank and one that has a single child.
def mixedTree : Condition :=
  ⟨.and, [.branch (.empty .or), .leaf "a OR b" [],
    .branch ⟨.or, [.leaf "c BETWEEN ? AND ?" [.int 1, .int 2], .branch ⟨.and, [.leaf "d" [.null]]⟩]⟩]⟩

theorem mixed_tree_keeps_meaning :
    let text := "(a OR b) AND ((c BETWEEN ? AND ?) OR (d IS NULL))"
    mixedTree.toFragment = .ok ⟨text, [.int 1, .int 2], none⟩ ∧ AllExpressions mixedTree.leaves ∧
      ∃ f, Formula.ofText text.toList = some f ∧ ∀ truth, f.eval truth 0 = mixedTree.formula.eval truth 0 := by
  intro text
  have compiled : mixedTree.toFragment = .ok ⟨text, [.int 1, .int 2], none⟩ := by
    cbv
  have expressions : AllExpressions mixedTree.leaves := by
    rw [AllExpressions]
    decide
  have solid : ¬ mixedTree.isBlank := by
    decide
  exact ⟨compiled, expressions, (condition_text_keeps_meaning mixedTree _ compiled expressions).2 solid⟩

end QueryBuilder

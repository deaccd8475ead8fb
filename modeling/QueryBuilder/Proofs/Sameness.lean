import QueryBuilder.Proofs.Comparison

/-!
Sameness of values is a partial equivalence.

Main statement: it is symmetric and transitive, and a value is the same as itself exactly when no number
that stands in it is NaN.
-/

set_option autoImplicit false

namespace QueryBuilder

theorem same_number_iff (x y : Double) :
    x.sameNumber y = true ↔
      x.isNaN = false ∧ y.isNaN = false ∧ (x.bits = y.bits ∨ x.isZero = true ∧ y.isZero = true) := by
  simp only [Double.sameNumber, Bool.and_eq_true, Bool.or_eq_true, Bool.not_eq_true', beq_iff_eq, and_assoc]

theorem same_number_symm {x y : Double} (same : x.sameNumber y = true) : y.sameNumber x = true := by
  rw [same_number_iff] at same ⊢
  obtain ⟨left, right, bits | ⟨zero, zero'⟩⟩ := same
  · exact ⟨right, left, .inl bits.symm⟩
  · exact ⟨right, left, .inr ⟨zero', zero⟩⟩

theorem same_number_trans {x y z : Double} (first : x.sameNumber y = true) (second : y.sameNumber z = true) :
    x.sameNumber z = true := by
  rw [same_number_iff] at first second ⊢
  obtain ⟨number, -, one⟩ := first
  obtain ⟨-, number', two⟩ := second
  refine ⟨number, number', ?_⟩
  obtain bits | ⟨zero, zero'⟩ := one
  · obtain rfl : x = y := congrArg Double.mk bits
    exact two
  · obtain bits | ⟨-, zero''⟩ := two
    · obtain rfl : y = z := congrArg Double.mk bits
      exact .inr ⟨zero, zero'⟩
    · exact .inr ⟨zero, zero''⟩

theorem same_number_self (x : Double) : x.sameNumber x = true ↔ x.isNaN = false := by
  simp [same_number_iff]

namespace Json

mutual
theorem beq_symm (a b : Json) (same : a.beq b = true) : b.beq a = true := by
  match a with
  | .null | .bool _ | .int _ | .text _ =>
      cases b <;> simp_all [beq]
  | .float x =>
      cases b with
      | float y => exact same_number_symm same
      | _ => cases same
  | .array as =>
      cases b with
      | array bs => exact beq_items_symm as bs same
      | _ => cases same
  | .object as =>
      cases b with
      | object bs => exact beq_fields_symm as bs same
      | _ => cases same

theorem beq_items_symm (as bs : List Json) (same : beqItems as bs = true) : beqItems bs as = true := by
  match as, bs with
  | [], [] => rfl
  | a :: as, b :: bs =>
      rw [beqItems, Bool.and_eq_true] at same ⊢
      exact ⟨beq_symm a b same.1, beq_items_symm as bs same.2⟩

theorem beq_fields_symm (as bs : List (String × Json)) (same : beqFields as bs = true) : beqFields bs as = true := by
  match as, bs with
  | [], [] => rfl
  | (j, a) :: as, (k, b) :: bs =>
      simp only [beqFields, Bool.and_eq_true, beq_iff_eq] at same ⊢
      exact ⟨⟨same.1.1.symm, beq_symm a b same.1.2⟩, beq_fields_symm as bs same.2⟩
end

mutual
theorem beq_trans (a b c : Json) (first : a.beq b = true) (second : b.beq c = true) : a.beq c = true := by
  match a with
  | .null =>
      cases b with
      | null => exact second
      | _ => cases first
  | .bool p =>
      cases b with
      | bool q => exact beq_iff_eq.mp first ▸ second
      | _ => cases first
  | .int m =>
      cases b with
      | int n => exact beq_iff_eq.mp first ▸ second
      | _ => cases first
  | .text s =>
      cases b with
      | text t => exact beq_iff_eq.mp first ▸ second
      | _ => cases first
  | .float x =>
      cases b with
      | float y =>
          cases c with
          | float z => exact same_number_trans first second
          | _ => cases second
      | _ => cases first
  | .array as =>
      cases b with
      | array bs =>
          cases c with
          | array cs => exact beq_items_trans as bs cs first second
          | _ => cases second
      | _ => cases first
  | .object as =>
      cases b with
      | object bs =>
          cases c with
          | object cs => exact beq_fields_trans as bs cs first second
          | _ => cases second
      | _ => cases first

theorem beq_items_trans (as bs cs : List Json) (first : beqItems as bs = true) (second : beqItems bs cs = true) :
    beqItems as cs = true := by
  match as, bs, cs with
  | [], [], [] => rfl
  | a :: as, b :: bs, c :: cs =>
      rw [beqItems, Bool.and_eq_true] at first second ⊢
      exact ⟨beq_trans a b c first.1 second.1, beq_items_trans as bs cs first.2 second.2⟩

theorem beq_fields_trans (as bs cs : List (String × Json)) (first : beqFields as bs = true)
    (second : beqFields bs cs = true) : beqFields as cs = true := by
  match as, bs, cs with
  | [], [], [] => rfl
  | (j, a) :: as, (k, b) :: bs, (l, c) :: cs =>
      simp only [beqFields, Bool.and_eq_true, beq_iff_eq] at first second ⊢
      exact ⟨⟨first.1.1.trans second.1.1, beq_trans a b c first.1.2 second.1.2⟩,
        beq_fields_trans as bs cs first.2 second.2⟩
end

mutual
theorem beq_self (a : Json) (numbers : ∀ x ∈ a.numbers, x.isNaN = false) : a.beq a = true := by
  match a with
  | .null => rfl
  | .bool _ | .int _ | .text _ => simp [beq]
  | .float x => exact (same_number_self x).mpr (numbers x (List.mem_singleton_self x))
  | .array as => exact beq_items_self as numbers
  | .object as => exact beq_fields_self as numbers

theorem beq_items_self (as : List Json) (numbers : ∀ x ∈ itemNumbers as, x.isNaN = false) : beqItems as as = true := by
  match as with
  | [] => rfl
  | a :: as =>
      rw [itemNumbers, List.forall_mem_append] at numbers
      rw [beqItems, beq_self a numbers.1, beq_items_self as numbers.2]
      rfl

theorem beq_fields_self (as : List (String × Json)) (numbers : ∀ x ∈ fieldNumbers as, x.isNaN = false) :
    beqFields as as = true := by
  match as with
  | [] => rfl
  | (j, a) :: as =>
      rw [fieldNumbers, List.forall_mem_append] at numbers
      rw [beqFields, beq_self a numbers.1, beq_fields_self as numbers.2, BEq.rfl]
      rfl
end

end Json

theorem atom_symm {v w : Value} (atom : v.isAtom = true) (same : Same v w) : Same w v := by
  cases v with
  | float x =>
      cases w with
      | float y => exact same_number_symm same
      | _ => cases same
  | json j =>
      cases w with
      | json k => exact Json.beq_symm j k same
      | _ => cases same
  | array | fragment | query => cases atom
  | _ => cases w <;> simp_all [Same, Value.same]

theorem atom_trans {v w u : Value} (atom : v.isAtom = true) (first : Same v w) (second : Same w u) : Same v u := by
  cases v with
  | float x =>
      cases w with
      | float y =>
          cases u with
          | float z => exact same_number_trans first second
          | _ => cases second
      | _ => cases first
  | json i =>
      cases w with
      | json j =>
          cases u with
          | json k => exact Json.beq_trans i j k first second
          | _ => cases second
      | _ => cases first
  | array | fragment | query => cases atom
  | _ =>
      cases w <;> simp [Same, Value.same] at first
      cases u <;> simp_all [Same, Value.same]

-- The one atom that is not the same as itself.
theorem atom_self {v : Value} (atom : v.isAtom = true) (formed : v.Formed) :
    Same v v ↔ ∀ x, v = .float x → x.isNaN = false := by
  cases v with
  | float x => simpa [Same, Value.same] using same_number_self x
  | json j =>
      have other (x : Double) (same : Value.json j = .float x) : x.isNaN = false := by cases same
      exact ⟨fun _ => other, fun _ => Json.beq_self j formed⟩
  | array | fragment | query => cases atom
  | _ => simp [Same, Value.same]

theorem value_symm (v : Value) (formed : v.WellFormed) (w : Value) (same : Same v w) : Same w v := by
  induction v using part_induct generalizing w with
  | step v ih =>
      cases atom : v.isAtom with
      | true => exact atom_symm atom same
      | false =>
          have here := well_formed_self formed
          have lifts := lifts_compound atom here
          have shape := (value_same_iff here w).mp same
          obtain ⟨-, there⟩ := matches_formed atom here shape
          have turned : v.Matches (fun x y => Same y x) w :=
            lifts.mono (fun x member y => ih x member (well_formed_part formed member) y) shape
          exact (value_same_iff there v).mpr (lifts.flip turned)

theorem value_trans (v : Value) (formed : v.WellFormed) (w u : Value) (first : Same v w) (second : Same w u) :
    Same v u := by
  induction v using part_induct generalizing w u with
  | step v ih =>
      cases atom : v.isAtom with
      | true => exact atom_trans atom first second
      | false =>
          have here := well_formed_self formed
          have lifts := lifts_compound atom here
          have shape := (value_same_iff here w).mp first
          obtain ⟨-, there⟩ := matches_formed atom here shape
          refine (value_same_iff here u).mpr (lifts.mono ?_ (lifts.comp shape ((value_same_iff there u).mp second)))
          rintro x member z ⟨y, one, two⟩
          exact ih x member (well_formed_part formed member) y z one two

theorem atom_parts {v : Value} (atom : v.isAtom = true) : v.parts = [] := by
  cases v with
  | array | fragment | query => cases atom
  | _ => rfl

def Value.HoldsNumbers (v : Value) : Prop :=
  ∀ x, v.Contains (.float x) → x.isNaN = false

theorem holds_numbers_iff (v : Value) :
    v.HoldsNumbers ↔ (∀ x, v = .float x → x.isNaN = false) ∧ ∀ p ∈ v.parts, p.HoldsNumbers := by
  constructor
  · intro numbers
    refine ⟨fun x here => ?_, fun p member x inner => numbers x (.part member inner)⟩
    subst here
    exact numbers x (.self _)
  · rintro ⟨here, below⟩ x contains
    obtain same | ⟨p, member, inner⟩ := (contains_iff v (.float x)).mp contains
    · exact here x same.symm
    · exact below p member x inner

theorem value_self (v : Value) (formed : v.WellFormed) : Same v v ↔ v.HoldsNumbers := by
  induction v using part_induct with
  | step v ih =>
      have here := well_formed_self formed
      rw [holds_numbers_iff]
      cases atom : v.isAtom with
      | true => simp [atom_self atom here, atom_parts atom]
      | false =>
          have noNumber : ∀ x, v = .float x → x.isNaN = false := by
            rintro x rfl
            cases atom
          have below : (∀ p ∈ v.parts, Same p p) ↔ ∀ p ∈ v.parts, p.HoldsNumbers :=
            forall₂_congr fun p member => ih p member (well_formed_part formed member)
          calc
            Same v v ↔ v.Matches Same v := value_same_iff here v
            _ ↔ ∀ p ∈ v.parts, Same p p := (lifts_compound atom here).self
            _ ↔ (∀ x, v = .float x → x.isNaN = false) ∧ ∀ p ∈ v.parts, p.HoldsNumbers := by
              rw [below]
              exact (and_iff_right noNumber).symm

theorem same_partial_equivalence (v w u : Value) (formed : v.WellFormed) :
    (v.same w → w.same v) ∧ (v.same w → w.same u → v.same u) ∧
      (v.same v ↔ ∀ x, v.Contains (.float x) → x.isNaN = false) :=
  ⟨value_symm v formed w, value_trans v formed w u, value_self v formed⟩

def selecting (x : Double) : Query :=
  { Query.empty .select with items := [⟨none, .value (.float x)⟩] }

-- A query with a number in a sub-query and in one of its ON trees, which can be registered either way.
def scored (x : Double) (turned : Bool) : Value :=
  let posts : JoinTree := ⟨"posts", ⟨.and, [.leaf "posts.score" [.array [.float x, .null]]]⟩⟩
  let tags : JoinTree := ⟨"tags", ⟨.or, [.leaf "tags.post = posts.id" [],
    .branch ⟨.and, [.leaf "tags.name" [.fragment ⟨"lower(?)", [.text "A"], none⟩]]⟩]⟩⟩
  .query { Query.empty .select with
    items := [⟨none, .value (.query (selecting x))⟩]
    joinTrees := if turned then [tags, posts] else [posts, tags] }

theorem atom_well_formed {v : Value} (atom : v.isAtom = true) (formed : v.Formed) : v.WellFormed := by
  refine well_formed_of formed ?_
  rw [atom_parts atom]
  exact nofun

theorem scored_well_formed (x : Double) (turned : Bool) : (scored x turned).WellFormed := by
  have number : (Value.float x).WellFormed := atom_well_formed rfl trivial
  have null : Value.null.WellFormed := atom_well_formed rfl trivial
  have text : (Value.text "A").WellFormed := atom_well_formed rfl trivial
  have items : (Value.array [.float x, .null]).WellFormed := well_formed_of trivial (by simp [Value.parts, number, null])
  have lower : (Value.fragment ⟨"lower(?)", [.text "A"], none⟩).WellFormed :=
    well_formed_of trivial (by simp [Value.parts, text])
  have sub : (Value.query (selecting x)).WellFormed := by
    refine well_formed_of List.nodup_nil ?_
    simp [selecting, Value.parts, Query.parts, Query.empty, SelectItem.values, Expr.values, number]
  have trees : ∀ p ∈ (scored x turned).parts, p.WellFormed := by
    cases turned <;> simp [scored, Value.parts, Query.parts, Query.empty, SelectItem.values, Expr.values, JoinTree.values,
      Condition.values, Condition.leaves, leavesOf, Node.leaves, items, lower, sub]
  refine well_formed_of ?_ trees
  cases turned with
  | false => exact (by decide : ["posts", "tags"].Nodup)
  | true => exact (by decide : ["tags", "posts"].Nodup)

theorem scored_same_turned :
    let v := scored ⟨0⟩ false
    let w := scored ⟨0x8000000000000000⟩ true
    let n := scored ⟨0x7FF8000000000000⟩ false
    v.same w = true ∧ w.same v = true ∧ v.same v = true ∧ n.same n = false := by
  intro v w n
  have formed : v.WellFormed := scored_well_formed _ _
  have same : v.same w = true := by decide +kernel
  obtain ⟨turned, back, -⟩ := same_partial_equivalence v w v formed
  obtain ⟨-, -, self⟩ := same_partial_equivalence n n n (scored_well_formed _ _)
  have below : (Value.query (selecting ⟨0x7FF8000000000000⟩)).Contains (.float ⟨0x7FF8000000000000⟩) :=
    .part (.head _) (.self _)
  have contains : n.Contains (.float ⟨0x7FF8000000000000⟩) := .part (.head _) below
  refine ⟨same, turned same, back same (turned same), ?_⟩
  cases alone : n.same n with
  | false => rfl
  | true => exact absurd (self.mp alone _ contains) (by decide)

end QueryBuilder

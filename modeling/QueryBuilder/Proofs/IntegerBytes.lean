import Mathlib
import QueryBuilder.Value.Wire

/-!
Integers on their way to the server.

Main statement: an integer that is bound to an integer type arrives as it is or not at all. It is refused
exactly when it lies outside the range of the type, and otherwise its bytes have the width of the
type and decode to it. A type that is neither an integer type nor a floating-point type refuses it
as it is, whatever its size.
-/

set_option autoImplicit false

namespace QueryBuilder

namespace Wire

-- The number that bytes write, the most significant one first.
def toNat (bytes : Bytes) : Nat :=
  bytes.foldl (fun n b => 256 * n + b.toNat) 0

-- The upper half of the numbers of a width stands for the negative ones.
def toInt (bytes : Bytes) : Int :=
  if 2 * toNat bytes < 256 ^ bytes.length then toNat bytes else toNat bytes - (256 ^ bytes.length : Nat)

theorem to_nat_concat (bytes : Bytes) (b : UInt8) : toNat (bytes ++ [b]) = 256 * toNat bytes + b.toNat := by
  rw [toNat, List.foldl_append]
  rfl

theorem big_endian_length (width n : Nat) : (bigEndian width n).length = width := by
  induction width generalizing n with
  | zero => rfl
  | succ width ih => rw [bigEndian, List.length_append, ih, List.length_singleton]

theorem signed_length (width : Nat) (n : Int) : (signed width n).length = width :=
  big_endian_length width _

theorem big_endian_to_nat (width n : Nat) : toNat (bigEndian width n) = n % 256 ^ width := by
  induction width generalizing n with
  | zero => exact (Nat.mod_one n).symm
  | succ width ih =>
      have digit : (UInt8.ofNat n).toNat = n % 256 := rfl
      rw [bigEndian, to_nat_concat, ih, digit, Nat.pow_succ', Nat.mod_mul, Nat.add_comm]

theorem signed_to_nat (width : Nat) (n : Int) : (toNat (signed width n) : Int) = n % (256 ^ width : Nat) := by
  have positive : 0 < 256 ^ width := Nat.pow_pos (by decide)
  have small : n % (256 ^ width : Nat) < (256 ^ width : Nat) := Int.emod_lt_of_pos n (Int.natCast_pos.mpr positive)
  have residue : 0 ≤ n % (256 ^ width : Nat) := Int.emod_nonneg n (Int.natCast_ne_zero.mpr (Nat.ne_of_gt positive))
  change (toNat (bigEndian width (n % (256 ^ width : Nat)).toNat) : Int) = n % (256 ^ width : Nat)
  rw [big_endian_to_nat, Nat.mod_eq_of_lt (by omega)]
  exact Int.toNat_of_nonneg residue

theorem natural_decoded {width : Nat} {n : Int} (low : 0 ≤ n) (high : n < (256 ^ width : Nat)) :
    (toNat (signed width n) : Int) = n := by
  rw [signed_to_nat, Int.emod_eq_of_lt low high]

-- Of the numbers with one residue, one lies between the bounds of the width.
theorem integer_decoded {width : Nat} {n : Int} (low : -(256 ^ width : Nat) ≤ 2 * n) (high : 2 * n < (256 ^ width : Nat)) :
    toInt (signed width n) = n := by
  have residue := signed_to_nat width n
  rw [toInt, signed_length]
  generalize toNat (signed width n) = m at residue ⊢
  generalize 256 ^ width = p at low high residue ⊢
  by_cases negative : n < 0
  · have shifted : n % p = n + p := by
      rw [← Int.add_emod_right, Int.emod_eq_of_lt (by omega) (by omega)]
    rw [if_neg (by omega)]
    omega
  · rw [Int.emod_eq_of_lt (by omega) (by omega)] at residue
    rw [if_pos (by omega)]
    exact residue

theorem checked_within {low high n : Int} (width : Nat) (within : low ≤ n ∧ n ≤ high) :
    checked width low high n = .ok (some (signed width n)) :=
  if_pos within

theorem checked_outside {low high n : Int} (width : Nat) (outside : ¬ (low ≤ n ∧ n ≤ high)) :
    checked width low high n = .error .outOfRange :=
  if_neg outside

end Wire

inductive IntegerType where
  | int2
  | int4
  | int8
  | oid

namespace IntegerType

def pgType : IntegerType → PgType
  | int2 => .int2
  | int4 => .int4
  | int8 => .int8
  | oid => .oid

def width : IntegerType → Nat
  | int2 => 2
  | int4 | oid => 4
  | int8 => 8

def Holds : IntegerType → Int → Prop
  | int2, n => -2 ^ 15 ≤ n ∧ n < 2 ^ 15
  | int4, n => -2 ^ 31 ≤ n ∧ n < 2 ^ 31
  | int8, n => -2 ^ 63 ≤ n ∧ n < 2 ^ 63
  | oid, n => 0 ≤ n ∧ n < 2 ^ 32

def decode : IntegerType → Wire.Bytes → Int
  | int2 | int4 | int8 => Wire.toInt
  | oid => fun bytes => Wire.toNat bytes

theorem held_bound {k : IntegerType} {n : Int} (holds : k.Holds n) :
    Wire.bindInt n k.pgType = .ok (some (Wire.signed k.width n)) := by
  cases k with
  | int8 => rfl
  | int2 | int4 | oid =>
      obtain ⟨low, high⟩ := holds
      exact Wire.checked_within _ ⟨by omega, by omega⟩

theorem held_decoded {k : IntegerType} {n : Int} (holds : k.Holds n) : k.decode (Wire.signed k.width n) = n := by
  cases k with
  | int2 | int4 | int8 =>
      obtain ⟨low, high⟩ := holds
      exact Wire.integer_decoded (by simp only [width]; omega) (by simp only [width]; omega)
  | oid => exact Wire.natural_decoded holds.1 holds.2

theorem int64_held (v : Int64) : int8.Holds v.toInt :=
  ⟨v.le_toInt, v.toInt_lt⟩

theorem unheld_refused {k : IntegerType} {v : Int64} (outside : ¬ k.Holds v.toInt) :
    Wire.bindInt v.toInt k.pgType = .error .outOfRange := by
  cases k with
  | int8 => exact absurd (int64_held v) outside
  | int2 | int4 | oid =>
      refine Wire.checked_outside _ fun within => outside ?_
      exact ⟨by omega, by omega⟩

end IntegerType

theorem other_type_refused {t : PgType} (n : Int) (other : ∀ k : IntegerType, t ≠ k.pgType) (single : t ≠ .float4)
    (double : t ≠ .float8) : Wire.bindInt n t = .error .wrongType := by
  cases t with
  | int2 => exact absurd rfl (other .int2)
  | int4 => exact absurd rfl (other .int4)
  | int8 => exact absurd rfl (other .int8)
  | oid => exact absurd rfl (other .oid)
  | float4 => exact absurd rfl single
  | float8 => exact absurd rfl double
  | _ => rfl

theorem bound_integer_decodes (v : Int64) :
    (∀ k : IntegerType,
      (k.Holds v.toInt → ∃ bytes, Value.bindTo k.pgType (.int v) = .ok (some bytes) ∧
        bytes.length = k.width ∧ k.decode bytes = v.toInt) ∧
      (¬ k.Holds v.toInt → Value.bindTo k.pgType (.int v) = .error .outOfRange)) ∧
    IntegerType.int8.Holds v.toInt ∧
    ∀ t, (∀ k : IntegerType, t ≠ k.pgType) → t ≠ .float4 → t ≠ .float8 →
      Value.bindTo t (.int v) = .error .wrongType := by
  refine ⟨fun k => ⟨fun holds => ?_, fun outside => ?_⟩, IntegerType.int64_held v, fun t other single double => ?_⟩
  · exact ⟨_, IntegerType.held_bound holds, Wire.signed_length _ _, IntegerType.held_decoded holds⟩
  · exact IntegerType.unheld_refused outside
  · exact other_type_refused v.toInt other single double

-- The lowest number of two bytes, and the one below it.
example : Value.bindTo .int2 (.int (-32768)) = .ok (some [0x80, 0]) ∧
    Value.bindTo .int2 (.int (-32769)) = .error .outOfRange := ⟨rfl, rfl⟩

end QueryBuilder

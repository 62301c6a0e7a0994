import FlowGraph.Number.Binary32
import Mathlib.Algebra.GroupWithZero.Nat

/-!
A finite number of 32 bits comes back from its 64 bits. There it only fills the upper part of the fraction, so
nothing is rounded away.
-/

namespace FlowGraph

namespace Binary64
variable {magnitude : Nat}

theorem isNegative_ofMagnitude (bound : magnitude < signBit) (negative : Bool) :
    (ofMagnitude negative magnitude).isNegative = negative := by
  unfold signBit at bound
  cases negative <;> simp only [isNegative, ofMagnitude, signBit, UInt64.toNat_ofNat'] <;> simp <;> omega

theorem magnitude_ofMagnitude (bound : magnitude < signBit) (negative : Bool) :
    (ofMagnitude negative magnitude).magnitude = magnitude := by
  unfold signBit at bound
  cases negative <;> simp only [Binary64.magnitude, ofMagnitude, signBit, UInt64.toNat_ofNat'] <;> simp <;> omega

theorem roundDiv_mul (quotient : Nat) {den : Nat} (positive : 0 < den) :
    roundDiv (quotient * den) den = quotient := by
  simp [roundDiv, Nat.mul_mod_left, Nat.mul_div_cancel _ positive, positive]

theorem normal_parts {x : Binary64} {exponent significand : Nat}
    (same : x.magnitude = exponent * fractionLimit + significand) (above : fractionLimit ≤ significand)
    (below : significand < 2 * fractionLimit) : x.significand = significand ∧ x.scale = (exponent : Int) - 1074 := by
  unfold fractionLimit at same above below
  rw [Binary64.significand, scale, same, fractionLimit, if_neg (by omega)]
  omega

end Binary64

namespace Binary32
variable {x : Binary32} {magnitude : Nat}

theorem magnitude_lt (x : Binary32) : x.magnitude < signBit := Nat.mod_lt _ (by decide)

theorem ofMagnitude_magnitude (x : Binary32) : ofMagnitude x.isNegative x.magnitude = x := by
  obtain ⟨bits⟩ := x
  have bound := bits.toNat_lt
  simp only [ofMagnitude, isNegative, Binary32.magnitude, signBit, mk.injEq, ← UInt32.toNat_inj, UInt32.toNat_ofNat']
  by_cases sign : 2147483648 ≤ bits.toNat <;> simp [sign] <;> omega

theorem significand_bounds (positive : magnitude ≠ 0) (small : magnitude < fractionLimit) :
    magnitude.log2 ≤ 22 ∧ Binary64.fractionLimit ≤ magnitude * 2 ^ (52 - magnitude.log2) ∧
      magnitude * 2 ^ (52 - magnitude.log2) < 2 * Binary64.fractionLimit := by
  have digits : magnitude.log2 < 23 := (Nat.log2_lt positive).mpr small
  refine ⟨by omega, ?_, ?_⟩
  · calc Binary64.fractionLimit = 2 ^ magnitude.log2 * 2 ^ (52 - magnitude.log2) := by
          rw [← Nat.pow_add, Nat.add_sub_of_le (by omega)]; rfl
      _ ≤ magnitude * 2 ^ (52 - magnitude.log2) := Nat.mul_le_mul_right _ (Nat.log2_self_le positive)
  · calc magnitude * 2 ^ (52 - magnitude.log2)
        < 2 ^ (magnitude.log2 + 1) * 2 ^ (52 - magnitude.log2) :=
          Nat.mul_lt_mul_of_pos_right Nat.lt_log2_self (Nat.two_pow_pos _)
      _ = 2 * Binary64.fractionLimit := by
          rw [← Nat.pow_add, show magnitude.log2 + 1 + (52 - magnitude.log2) = 53 by omega]; rfl

theorem wideMagnitude_normal (normal : fractionLimit ≤ magnitude) (finite : magnitude < infiniteMagnitude) :
    wideMagnitude magnitude = magnitude * fractionUnit + exponentShift := by
  rw [wideMagnitude, if_neg (Nat.not_le.mpr finite), if_pos normal]

theorem wideMagnitude_subnormal (positive : magnitude ≠ 0) (small : magnitude < fractionLimit) :
    wideMagnitude magnitude =
      (magnitude.log2 + 873) * Binary64.fractionLimit + magnitude * 2 ^ (52 - magnitude.log2) := by
  have finite : magnitude < infiniteMagnitude := Nat.lt_trans small (by decide)
  rw [wideMagnitude, if_neg (Nat.not_le.mpr finite), if_neg (Nat.not_le.mpr small), if_neg positive]
  rfl

theorem wideMagnitude_infinite (infinite : infiniteMagnitude ≤ magnitude) (bound : magnitude < signBit) :
    Binary64.infiniteMagnitude ≤ wideMagnitude magnitude ∧ wideMagnitude magnitude < Binary64.signBit := by
  rw [wideMagnitude, if_pos infinite]
  unfold signBit at bound
  unfold Binary64.infiniteMagnitude infiniteMagnitude fractionUnit Binary64.signBit
  omega

theorem wideMagnitude_finite (finite : magnitude < infiniteMagnitude) :
    wideMagnitude magnitude < Binary64.infiniteMagnitude := by
  by_cases normal : fractionLimit ≤ magnitude
  · rw [wideMagnitude_normal normal finite]
    unfold infiniteMagnitude at finite
    unfold exponentShift fractionUnit Binary64.fractionLimit Binary64.infiniteMagnitude
    omega
  by_cases zero : magnitude = 0
  · subst zero
    decide
  · have small := Nat.not_le.mp normal
    obtain ⟨digits, _, below⟩ := significand_bounds zero small
    rw [wideMagnitude_subnormal zero small]
    unfold Binary64.fractionLimit at below ⊢
    unfold Binary64.infiniteMagnitude
    omega

theorem wideMagnitude_lt (bound : magnitude < signBit) : wideMagnitude magnitude < Binary64.signBit := by
  by_cases infinite : infiniteMagnitude ≤ magnitude
  · exact (wideMagnitude_infinite infinite bound).2
  · exact Nat.lt_trans (wideMagnitude_finite (Nat.not_le.mp infinite)) (by decide)

theorem isFinite_iff : x.isFinite = true ↔ x.magnitude < infiniteMagnitude := by
  rw [isFinite, Binary64.isFinite, widen, Binary64.magnitude_ofMagnitude (wideMagnitude_lt x.magnitude_lt),
    decide_eq_true_eq]
  constructor
  · intro finite
    by_cases infinite : infiniteMagnitude ≤ x.magnitude
    · exact absurd (wideMagnitude_infinite infinite x.magnitude_lt).1 (Nat.not_le.mpr finite)
    · exact Nat.not_le.mp infinite
  · exact wideMagnitude_finite

theorem nearestMagnitude_eq {wide : Binary64} (finite : magnitude < infiniteMagnitude)
    (same : wide.magnitude = wideMagnitude magnitude) : nearestMagnitude wide = magnitude := by
  have number : wide.isNaN = false := by
    rw [Binary64.isNaN, same]
    exact decide_eq_false (Nat.not_lt.mpr (Nat.le_of_lt (wideMagnitude_finite finite)))
  rw [nearestMagnitude, number, if_neg Bool.false_ne_true]
  by_cases normal : fractionLimit ≤ magnitude
  · rw [same, wideMagnitude_normal normal finite, if_pos, Nat.add_sub_cancel,
      Binary64.roundDiv_mul _ (by decide), Nat.min_eq_left (Nat.le_of_lt finite)]
    unfold fractionLimit at normal
    unfold exponentShift fractionUnit Binary64.fractionLimit
    omega
  by_cases zero : magnitude = 0
  · subst zero
    have significand : wide.significand = 0 := by rw [Binary64.significand, same]; rfl
    rw [same, significand, if_neg (by decide)]
    simpa using Binary64.roundDiv_mul 0 (Nat.two_pow_pos (-149 - wide.scale).toNat)
  · have small := Nat.not_le.mp normal
    obtain ⟨digits, above, below⟩ := significand_bounds zero small
    have parts := same.trans (wideMagnitude_subnormal zero small)
    have early : ¬exponentShift + Binary64.fractionLimit ≤ wide.magnitude := by
      rw [parts]
      unfold Binary64.fractionLimit at below ⊢
      unfold exponentShift Binary64.fractionLimit
      omega
    obtain ⟨significand, scale⟩ := Binary64.normal_parts parts above below
    have shift : (-149 - wide.scale).toNat = 52 - magnitude.log2 := by omega
    rw [if_neg early, significand, shift]
    exact Binary64.roundDiv_mul _ (Nat.two_pow_pos _)

theorem narrow_widen (finite : x.isFinite = true) : narrow x.widen = x := by
  have bound := wideMagnitude_lt x.magnitude_lt
  have magnitude : nearestMagnitude x.widen = x.magnitude :=
    nearestMagnitude_eq (isFinite_iff.mp finite) (Binary64.magnitude_ofMagnitude bound _)
  rw [narrow, magnitude, widen, Binary64.isNegative_ofMagnitude bound, ofMagnitude_magnitude]

end Binary32
end FlowGraph

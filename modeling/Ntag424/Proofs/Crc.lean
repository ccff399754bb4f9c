import Ntag424.Spec.Primitives
import Mathlib.RingTheory.AdjoinRoot
import Mathlib.Algebra.CharP.Two

/-! `crc32_ieee` is polynomial division over GF(2). The register is read as a polynomial with
bit `i` the coefficient of `x ^ (31 - i)` (`regPoly`). One shift of the inner loop multiplies
it by `x` modulo `P(x)`, because `0xEDB88320` is `P(x) - x ^ 32` read that way, and xoring a
byte in adds the byte's bits at degrees 31 down to 24. Working in `AdjoinRoot P`, where
congruence is equality, the whole fold is `x^(8|d|)·I(x) + x^32·M(x)`, and the register, of
degree below 32, is the remainder itself. -/

namespace Ntag424

open Polynomial

noncomputable section

/-- the GF(2) coefficient of a bit -/
def bitC (b : Bool) : ZMod 2 := if b then 1 else 0

/-- the CRC-32 generator `P(x)` -/
def crcPoly : (ZMod 2)[X] :=
  X ^ 32 + X ^ 26 + X ^ 23 + X ^ 22 + X ^ 16 + X ^ 12 + X ^ 11 + X ^ 10 + X ^ 8 + X ^ 7 +
    X ^ 5 + X ^ 4 + X ^ 2 + X + 1

/-- the eight bits of a byte, least significant first, the first one at degree 7 -/
def bytePoly (b : Byte) : (ZMod 2)[X] :=
  ∑ j in Finset.range 8, monomial (7 - j) (bitC (b.getLsbD j))

/-- `M(x)`: the bits of `d`, least significant bit of each byte first, the first bit at the
highest degree -/
def msgPoly : List Byte → (ZMod 2)[X]
  | [] => 0
  | b :: d => X ^ (8 * d.length) * bytePoly b + msgPoly d

/-- `(x^32·M(x) + x^(8|d|)·(x^31 + … + x + 1)) mod P(x)` -/
def crcRemainder (d : List Byte) : (ZMod 2)[X] :=
  (X ^ 32 * msgPoly d + X ^ (8 * d.length) * ∑ i in Finset.range 32, X ^ i) %ₘ crcPoly

/-- the 32-bit reversal of a polynomial: bit `i` is the coefficient of `x ^ (31 - i)` -/
def bitRev32 (p : (ZMod 2)[X]) : BitVec 32 :=
  (BitVec.ofBoolListLE ((List.range 32).map fun i => decide (p.coeff (31 - i) = 1))).setWidth 32

/-- the standard CRC-32, the complement of the reflected remainder -/
def crc32Standard (d : List Byte) : BitVec 32 := ~~~ bitRev32 (crcRemainder d)

/-- the CRC register as a polynomial -/
def regPoly (r : BitVec 32) : (ZMod 2)[X] :=
  ∑ i in Finset.range 32, monomial (31 - i) (bitC (r.getLsbD i))

/-- reduction modulo `P(x)` -/
def modP : (ZMod 2)[X] →+* AdjoinRoot crcPoly := AdjoinRoot.mk crcPoly

theorem bitC_xor (a b : Bool) : bitC (a ^^ b) = bitC a + bitC b := by
  cases a <;> cases b <;> rfl

theorem regPoly_xor (r s : BitVec 32) : regPoly (r ^^^ s) = regPoly r + regPoly s := by
  simp only [regPoly, ← Finset.sum_add_distrib, BitVec.getLsbD_xor, bitC_xor, monomial_add]

/-- `0xEDB88320` is `P(x) - x ^ 32`, bit-reversed -/
theorem regPoly_edb88320 : regPoly 0xEDB88320 = crcPoly + X ^ 32 := by
  have h : regPoly 0xEDB88320 + X ^ 32 = crcPoly := by
    simp [regPoly, Finset.sum_range_succ, bitC, crcPoly, BitVec.getLsbD_ofNat,
      Nat.testBit_to_div_mod, ← C_mul_X_pow_eq_monomial]
    ring
  rw [← h, add_assoc, CharTwo.add_self_eq_zero, add_zero]

theorem regPoly_allOnes : regPoly 0xFFFFFFFF = ∑ i in Finset.range 32, X ^ i := by
  rw [regPoly, ← Finset.sum_range_reflect (fun i => (X : (ZMod 2)[X]) ^ i) 32]
  refine Finset.sum_congr rfl fun i hi => ?_
  have hi : i < 32 := Finset.mem_range.mp hi
  rw [show (0xFFFFFFFF : BitVec 32) = BitVec.allOnes 32 from rfl, BitVec.getLsbD_allOnes,
    decide_eq_true hi, bitC, if_pos rfl, ← C_mul_X_pow_eq_monomial, map_one, one_mul]

theorem X_mul_regPoly (r : BitVec 32) :
    X * regPoly r = monomial 32 (bitC (r.getLsbD 0)) + regPoly (r >>> 1) := by
  have hlast : (r >>> 1).getLsbD 31 = false := by
    simp [BitVec.getLsbD_ushiftRight, BitVec.getLsbD_ge]
  rw [regPoly, Finset.mul_sum, Finset.sum_range_succ', add_comm]
  conv_rhs => rw [regPoly, Finset.sum_range_succ, hlast]
  rw [show bitC false = 0 from rfl, map_zero, add_zero]
  simp only [X_mul_monomial, Nat.sub_zero]
  congr 1

theorem crcShift_cond (r : BitVec 32) : (r &&& 1 ≠ 0) ↔ r.getLsbD 0 = true := by
  rw [show (1 : BitVec 32) = 1#32 from rfl, BitVec.and_one_eq_setWidth_ofBool_getLsbD]
  cases r.getLsbD 0 <;> decide

/-- one shift of the inner loop is multiplication by `x` modulo `P(x)` -/
theorem modP_regPoly_crcShift (r : BitVec 32) :
    modP (regPoly (crcShift r)) = modP X * modP (regPoly r) := by
  have hP : modP crcPoly = 0 := AdjoinRoot.mk_self
  rw [← map_mul, X_mul_regPoly, crcShift]
  by_cases h : r.getLsbD 0
  · rw [if_pos ((crcShift_cond r).2 h), regPoly_xor, regPoly_edb88320, h]
    simp only [bitC, if_true, ← C_mul_X_pow_eq_monomial, map_one, one_mul, map_add, hP,
      zero_add, add_comm]
  · rw [if_neg (by rwa [crcShift_cond]), Bool.eq_false_iff.mpr h]
    simp [bitC]

theorem modP_regPoly_iterate (k : Nat) (r : BitVec 32) :
    modP (regPoly (crcShift^[k] r)) = modP X ^ k * modP (regPoly r) := by
  induction k generalizing r with
  | zero => simp
  | succ k ih => rw [Function.iterate_succ_apply, ih, modP_regPoly_crcShift]; ring

theorem regPoly_setWidth (b : Byte) : regPoly (b.setWidth 32) = X ^ 24 * bytePoly b := by
  rw [regPoly, show 32 = 8 + 24 from rfl, Finset.sum_range_add, bytePoly, Finset.mul_sum]
  have hhigh : ∀ x ∈ Finset.range 24,
      monomial (31 - (8 + x)) (bitC ((b.setWidth 32).getLsbD (8 + x))) = 0 := by
    intro x _
    simp [BitVec.getLsbD_setWidth, BitVec.getLsbD_ge, bitC]
  rw [Finset.sum_eq_zero hhigh, add_zero]
  refine Finset.sum_congr rfl fun j hj => ?_
  have hj : j < 8 := Finset.mem_range.mp hj
  rw [X_pow_mul_monomial, BitVec.getLsbD_setWidth, show 7 - j + 24 = 31 - j by omega]
  simp [show j < 32 by omega]

theorem modP_regPoly_foldl (d : List Byte) (r : BitVec 32) :
    modP (regPoly (d.foldl (fun crc b => crcShift^[8] (crc ^^^ b.setWidth 32)) r)) =
      modP (X ^ 32 * msgPoly d + X ^ (8 * d.length) * regPoly r) := by
  induction d generalizing r with
  | nil => simp [msgPoly]
  | cons b d ih =>
    rw [List.foldl_cons, ih]
    simp only [msgPoly, List.length_cons, map_add, map_mul, map_pow, modP_regPoly_iterate,
      regPoly_xor, regPoly_setWidth]
    ring

theorem crcPoly_monic : crcPoly.Monic := by unfold crcPoly; monicity!

theorem crcPoly_degree : crcPoly.degree = 32 := by unfold crcPoly; compute_degree!

theorem degree_regPoly_lt (r : BitVec 32) : (regPoly r).degree < 32 := by
  rw [show (32 : WithBot Nat) = ((32 : Nat) : WithBot Nat) from rfl, degree_lt_iff_coeff_zero]
  intro m hm
  simp only [regPoly, finset_sum_coeff, coeff_monomial]
  exact Finset.sum_eq_zero fun i _ => if_neg (by omega)

theorem coeff_regPoly (r : BitVec 32) {i : Nat} (hi : i < 32) :
    (regPoly r).coeff (31 - i) = bitC (r.getLsbD i) := by
  rw [regPoly, finset_sum_coeff, Finset.sum_eq_single i]
  · simp
  · intro j hj hne
    rw [coeff_monomial, if_neg (by simp at hj; omega)]
  · simp [hi]

theorem bitRev32_regPoly (r : BitVec 32) : bitRev32 (regPoly r) = r := by
  ext i
  simp only [bitRev32, BitVec.getLsbD_setWidth, BitVec.getLsb_ofBoolListLE, i.isLt,
    decide_True, Bool.true_and, List.getD_eq_getElem?_getD, List.getElem?_map,
    List.getElem?_range i.isLt, Option.map_some', Option.getD_some, coeff_regPoly r i.isLt]
  cases r.getLsbD i <;> decide

/-- the register after the loop is the remainder -/
theorem crcRemainder_eq (d : List Byte) : crcRemainder d = regPoly (crc32Ieee d) := by
  have hmod := modP_regPoly_foldl d 0xFFFFFFFF
  rw [regPoly_allOnes] at hmod
  obtain ⟨q, hq⟩ := AdjoinRoot.mk_eq_mk.mp hmod.symm
  refine (div_modByMonic_unique q _ crcPoly_monic ⟨?_, ?_⟩).2
  · rw [← hq]; unfold crc32Ieee; ring
  · rw [crcPoly_degree]; exact degree_regPoly_lt _

theorem crc32Ieee_eq_bitRev32_crcRemainder (d : List Byte) :
    crc32Ieee d = bitRev32 (crcRemainder d) ∧ crc32Ieee d = ~~~ crc32Standard d := by
  have h : crc32Ieee d = bitRev32 (crcRemainder d) := by
    rw [crcRemainder_eq, bitRev32_regPoly]
  exact ⟨h, by rw [crc32Standard, ← h, BitVec.not_not]⟩

end

end Ntag424

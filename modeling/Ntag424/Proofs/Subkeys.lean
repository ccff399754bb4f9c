import Ntag424.Spec.Primitives
import Mathlib.Data.Nat.Digits

/-! The CMAC subkeys. A block read as a big-endian number (`toNatBE`, byte 0 most
significant) turns the byte-wise carry loop of `left_shift_1bit` into doubling modulo
`2 ^ 128`, and the test `L[0] & 0x80` into `2 ^ 127 ≤ L`. So `generate_cmac_subkeys` computes
RFC 4493's `K1 = dbl(L)` and `K2 = dbl(K1)`. -/

namespace Ntag424

/-- big-endian value of a byte string -/
def toNatBE : List Byte → Nat
  | [] => 0
  | b :: t => b.toNat * 256 ^ t.length + toNatBE t

/-- the last `k` bytes of `v`, most significant first -/
def digitsBE : Nat → Nat → List Byte
  | 0, _ => []
  | k + 1, v => BitVec.ofNat 8 (v / 256 ^ k) :: digitsBE k v

/-- the block of big-endian value `v mod 2 ^ 128` -/
def ofNatBE (v : Nat) : Block := ⟨digitsBE 16 v, by
  suffices ∀ k, (digitsBE k v).length = k from this 16
  intro k; induction k <;> simp_all [digitsBE]⟩

/-- RFC 4493 `dbl`: the value shifted left by one bit modulo `2 ^ 128`, with `0x87` xored
into the last byte when the top bit was set -/
def dbl (b : Block) : Block :=
  let v := toNatBE b.toList
  if 2 ^ 127 ≤ v then (ofNatBE (2 * v % 2 ^ 128)).xor rb else ofNatBE (2 * v % 2 ^ 128)

theorem and_0x80_ne_zero_iff : ∀ x : Byte, x &&& 0x80 ≠ 0 ↔ 128 ≤ x.toNat := by decide

theorem toNat_shiftLeft_one_or {b c : Byte} (hc : c.toNat ≤ 1) :
    ((b <<< 1) ||| c).toNat = 2 * (b.toNat % 128) + c.toNat := by
  have h1 : (b <<< 1).toNat = 2 ^ 1 * (b.toNat % 128) := by
    simp only [BitVec.toNat_shiftLeft, Nat.shiftLeft_eq]; omega
  rw [BitVec.toNat_or, h1, ← Nat.mul_add_lt_is_or (by omega)]

theorem toNatBE_lt (l : List Byte) : toNatBE l < 256 ^ l.length := by
  induction l with
  | nil => simp [toNatBE]
  | cons b t ih =>
    have := Nat.mul_le_mul_right (256 ^ t.length) (show b.toNat ≤ 255 by omega)
    simp only [toNatBE, List.length_cons, pow_succ]
    omega

theorem toNatBE_digitsBE (k v : Nat) : toNatBE (digitsBE k v) = v % 256 ^ k := by
  induction k with
  | zero => simp [toNatBE, digitsBE, Nat.mod_one]
  | succ k ih =>
    have hlen : (digitsBE k v).length = k := by
      clear ih; induction k <;> simp_all [digitsBE]
    simp only [toNatBE, digitsBE, hlen, ih]
    rw [Nat.mod_pow_succ, BitVec.toNat_ofNat, Nat.add_comm, Nat.mul_comm]

theorem toNatBE_inj {l₁ l₂ : List Byte} (hl : l₁.length = l₂.length)
    (h : toNatBE l₁ = toNatBE l₂) : l₁ = l₂ := by
  induction l₁ generalizing l₂ with
  | nil => exact (List.length_eq_zero.mp hl.symm).symm
  | cons a t ih =>
    obtain ⟨b, u, rfl⟩ := List.exists_cons_of_length_eq_add_one hl.symm
    simp only [List.length_cons, add_left_inj] at hl
    simp only [toNatBE, hl] at h
    have hpos : 0 < 256 ^ u.length := by positivity
    have ht := toNatBE_lt t
    have hu := toNatBE_lt u
    rw [hl] at ht
    have hdiv := congrArg (· / 256 ^ u.length) h
    have hmod := congrArg (· % 256 ^ u.length) h
    simp only [Nat.add_comm (_ * _), Nat.add_mul_div_right _ _ hpos, Nat.add_mul_mod_self_right,
      Nat.div_eq_of_lt ht, Nat.div_eq_of_lt hu, Nat.mod_eq_of_lt ht, Nat.mod_eq_of_lt hu,
      zero_add] at hdiv hmod
    rw [BitVec.eq_of_toNat_eq hdiv, ih hl hmod]

theorem toNatBE_ofNatBE (v : Nat) : toNatBE (ofNatBE v).toList = v % 2 ^ 128 := by
  simp [ofNatBE, toNatBE_digitsBE]

theorem ofNatBE_toNatBE (b : Block) : ofNatBE (toNatBE b.toList) = b := by
  ext1
  apply toNatBE_inj (by simp)
  rw [toNatBE_ofNatBE, Nat.mod_eq_of_lt (by simpa using toNatBE_lt b.toList)]

/-- the carry loop doubles the big-endian value, the carry out being what overflows -/
theorem two_mul_toNatBE (l : List Byte) :
    2 * toNatBE l = (shiftCarry l).2.toNat * 256 ^ l.length + toNatBE (shiftCarry l).1 ∧
      (shiftCarry l).2.toNat ≤ 1 := by
  induction l with
  | nil => simp [toNatBE, shiftCarry]
  | cons b t ih =>
    obtain ⟨ih, hc⟩ := ih
    have hq : (if b &&& 0x80 ≠ 0 then (1 : Byte) else 0).toNat = b.toNat / 128 := by
      have := and_0x80_ne_zero_iff b
      split <;> simp_all <;> omega
    -- doubling the head byte splits into the carry out and the shifted byte
    have hhead : 2 * b.toNat * 256 ^ t.length =
        b.toNat / 128 * (256 ^ t.length * 256) + 2 * (b.toNat % 128) * 256 ^ t.length := by
      conv_lhs => rw [← Nat.div_add_mod b.toNat 128]
      ring
    simp only [shiftCarry, toNatBE, List.length_cons, length_shiftCarry,
      toNat_shiftLeft_one_or hc, hq, pow_succ]
    refine ⟨by linarith, by omega⟩

theorem toNatBE_leftShift1bit (b : Block) :
    toNatBE (leftShift1bit b).toList = 2 * toNatBE b.toList % 2 ^ 128 := by
  obtain ⟨h, -⟩ := two_mul_toNatBE b.toList
  have hlt := toNatBE_lt (shiftCarry b.toList).1
  simp only [length_shiftCarry, Bytes.length_toList] at h hlt
  rw [h, show (2 : Nat) ^ 128 = 256 ^ 16 by norm_num, Nat.add_comm,
    Nat.add_mul_mod_self_right, Nat.mod_eq_of_lt hlt]
  rfl

theorem leftShift1bit_eq (b : Block) :
    leftShift1bit b = ofNatBE (2 * toNatBE b.toList % 2 ^ 128) := by
  rw [← toNatBE_leftShift1bit, ofNatBE_toNatBE]

theorem msb_iff (b : Block) : b.toList.getD 0 0 &&& 0x80 ≠ 0 ↔ 2 ^ 127 ≤ toNatBE b.toList := by
  obtain ⟨x, t, hb⟩ := List.exists_cons_of_length_eq_add_one b.length_toList
  have ht : t.length = 15 := by simpa [hb] using b.length_toList
  have hlt := toNatBE_lt t
  rw [hb, List.getD_cons_zero, and_0x80_ne_zero_iff, toNatBE, ht]
  rw [ht] at hlt
  constructor
  · intro h; have := Nat.mul_le_mul_right (256 ^ 15) h; omega
  · intro h
    by_contra hx
    have := Nat.mul_le_mul_right (256 ^ 15) (show x.toNat ≤ 127 by omega)
    omega

/-- one subkey step of `generate_cmac_subkeys` is `dbl` -/
theorem subkeyStep_eq_dbl (b : Block) :
    (if b.toList.getD 0 0 &&& 0x80 ≠ 0 then (leftShift1bit b).xor rb else leftShift1bit b) =
      dbl b := by
  simp only [dbl, leftShift1bit_eq, msb_iff]

theorem generateCmacSubkeys_eq (aes : BlockCipher) (key : Block) :
    aes.generateCmacSubkeys key = (dbl (aes.enc key 0), dbl (dbl (aes.enc key 0))) := by
  simp only [BlockCipher.generateCmacSubkeys, BlockCipher.ecbEncrypt, subkeyStep_eq_dbl]

/-! ### `dbl` on 128-bit numbers -/

/-- RFC 4493's `dbl` on the number a block stands for:
`(2v mod 2 ^ 128) ⊕ (0x87 if v ≥ 2 ^ 127, else 0)` -/
def dblNat (v : Nat) : Nat := 2 * v % 2 ^ 128 ^^^ if 2 ^ 127 ≤ v then 0x87 else 0

theorem two_pow_mul_add_xor (a b x y k : Nat) (hx : x < 2 ^ k) (hy : y < 2 ^ k) :
    (2 ^ k * a + x) ^^^ (2 ^ k * b + y) = 2 ^ k * (a ^^^ b) + (x ^^^ y) := by
  apply Nat.eq_of_testBit_eq
  intro j
  rw [Nat.testBit_xor, Nat.testBit_mul_pow_two_add _ hx, Nat.testBit_mul_pow_two_add _ hy,
    Nat.testBit_mul_pow_two_add _ (Nat.xor_lt_two_pow hx hy)]
  split <;> simp only [Nat.testBit_xor]

theorem toNatBE_zipWith_xor : ∀ (a b : List Byte), a.length = b.length →
    toNatBE (List.zipWith (· ^^^ ·) a b) = toNatBE a ^^^ toNatBE b
  | [], [], _ => rfl
  | x :: a, y :: b, h => by
    have hl : a.length = b.length := Nat.succ.inj h
    have h256 : (256 : Nat) ^ a.length = 2 ^ (8 * a.length) := by rw [pow_mul]; norm_num
    have ha := toNatBE_lt a
    have hb := toNatBE_lt b
    rw [h256] at ha
    rw [← hl, h256] at hb
    simp only [List.zipWith_cons_cons, toNatBE, List.length_zipWith, ← hl, min_self,
      BitVec.toNat_xor, h256]
    rw [Nat.mul_comm x.toNat, Nat.mul_comm y.toNat, two_pow_mul_add_xor _ _ _ _ _ ha hb,
      toNatBE_zipWith_xor a b hl, Nat.mul_comm]

theorem toNatBE_dbl (b : Block) : toNatBE (dbl b).toList = dblNat (toNatBE b.toList) := by
  have hw : 2 * toNatBE b.toList % 2 ^ 128 < 2 ^ 128 := Nat.mod_lt _ (by positivity)
  have hrb : toNatBE rb.toList = 0x87 := by decide
  by_cases h : 2 ^ 127 ≤ toNatBE b.toList
  · simp only [dbl, dblNat, h, if_true]
    rw [Bytes.toList_xor, toNatBE_zipWith_xor _ _ (by simp), toNatBE_ofNatBE,
      Nat.mod_eq_of_lt hw, hrb]
  · simp only [dbl, dblNat, h, if_false]
    rw [toNatBE_ofNatBE, Nat.mod_eq_of_lt hw, Nat.xor_zero]

theorem leftShift1bit_generateCmacSubkeys :
    (∀ x : Block, toNatBE (leftShift1bit x).toList = 2 * toNatBE x.toList % 2 ^ 128) ∧
    ∀ (aes : BlockCipher) (key : Block),
      let k := aes.generateCmacSubkeys key
      toNatBE k.1.toList = dblNat (toNatBE (aes.ecbEncrypt key 0).toList) ∧
        toNatBE k.2.toList = dblNat (toNatBE k.1.toList) := by
  refine ⟨toNatBE_leftShift1bit, fun aes key => ?_⟩
  simp only [generateCmacSubkeys_eq, BlockCipher.ecbEncrypt, toNatBE_dbl, and_self]

end Ntag424

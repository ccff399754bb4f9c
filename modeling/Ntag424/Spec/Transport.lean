import Ntag424.Spec.Primitives
import Mathlib.Tactic.FinCases

/-! The reader transport. `SCardTransmit` is outside the program: what it delivers for an
APDU is an input, `none` for a reader error, otherwise the raw reply bytes. A reply longer
than the caller's buffer (`MAX_APDU` bytes everywhere here) is refused by `SCardTransmit`
itself. `transmit` splits the last two bytes off as the status word `SW1 SW2`. -/

namespace Ntag424

/-- `MAX_APDU` -/
def maxApdu : Nat := 512

/-- `(SW1 << 8) | SW2` -/
def swOf (sw1 sw2 : Byte) : BitVec 16 := (sw1.setWidth 16 <<< 8) ||| sw2.setWidth 16

/-- `transmit` with a `cap`-byte response buffer -/
def transmit (cap : Nat) : Option (List Byte) → Option (List Byte × BitVec 16)
  | none => none
  | some raw =>
    if cap < raw.length ∨ raw.length < 2 then none
    else some (raw.take (raw.length - 2),
      swOf (raw.getD (raw.length - 2) 0) (raw.getD (raw.length - 1) 0))

theorem toNat_swOf (sw1 sw2 : Byte) : (swOf sw1 sw2).toNat = sw1.toNat * 256 + sw2.toNat := by
  have h1 : (sw1.setWidth 16 <<< 8).toNat = 2 ^ 8 * sw1.toNat := by
    simp only [BitVec.toNat_shiftLeft, BitVec.toNat_setWidth, Nat.shiftLeft_eq]; omega
  rw [swOf, BitVec.toNat_or, h1, BitVec.toNat_setWidth, Nat.mod_eq_of_lt (by omega),
    ← Nat.mul_add_lt_is_or (by omega)]
  omega

theorem swOf_inj {a b c d : Byte} : swOf a b = swOf c d ↔ a = c ∧ b = d := by
  constructor
  · intro h
    have := congrArg BitVec.toNat h
    rw [toNat_swOf, toNat_swOf] at this
    exact ⟨BitVec.eq_of_toNat_eq (by omega), BitVec.eq_of_toNat_eq (by omega)⟩
  · rintro ⟨rfl, rfl⟩; rfl

theorem swOf_and_ff00 (sw1 sw2 : Byte) : swOf sw1 sw2 &&& 0xFF00 = swOf sw1 0 := by
  ext i
  simp only [swOf, BitVec.getLsbD_and, BitVec.getLsbD_or, BitVec.getLsbD_shiftLeft,
    BitVec.getLsbD_setWidth]
  fin_cases i <;> simp

/-- `sw & 0xFF00 == 0x9100` tests `SW1 = 0x91` -/
theorem swOf_and_ff00_eq (sw1 sw2 : Byte) : swOf sw1 sw2 &&& 0xFF00 = 0x9100 ↔ sw1 = 0x91 := by
  rw [swOf_and_ff00, show (0x9100 : BitVec 16) = swOf 0x91 0 from rfl, swOf_inj]; simp

/-- `(uint8_t)(sw & 0x00FF)` is `SW2` -/
theorem swOf_sw2 (sw1 sw2 : Byte) : (swOf sw1 sw2 &&& 0xFF).setWidth 8 = sw2 := by
  apply BitVec.eq_of_toNat_eq
  rw [BitVec.toNat_setWidth, BitVec.toNat_and, toNat_swOf,
    show (0xFF : BitVec 16).toNat = 2 ^ 8 - 1 from rfl, Nat.and_pow_two_sub_one_eq_mod]
  omega

theorem transmit_append_pair (cap : Nat) (body : List Byte) (sw1 sw2 : Byte) :
    transmit cap (some (body ++ [sw1, sw2])) =
      if cap < body.length + 2 then none else some (body, swOf sw1 sw2) := by
  have h1 : (body ++ [sw1, sw2]).getD body.length 0 = sw1 := by
    rw [List.getD_append_right _ _ _ _ le_rfl, Nat.sub_self]; rfl
  have h2 : (body ++ [sw1, sw2]).getD (body.length + 1) 0 = sw2 := by
    rw [List.getD_append_right _ _ _ _ (by omega), Nat.add_sub_cancel_left]; rfl
  simp only [transmit, List.length_append, List.length_cons, List.length_nil, Nat.add_sub_cancel,
    show body.length + (0 + 1 + 1) - 1 = body.length + 1 by omega, h1, h2,
    List.take_left' rfl, show ¬ body.length + (0 + 1 + 1) < 2 by omega, or_false, zero_add]

theorem transmit_some (cap : Nat) (body : List Byte) (sw1 sw2 : Byte)
    (h : body.length + 2 ≤ cap) :
    transmit cap (some (body ++ [sw1, sw2])) = some (body, swOf sw1 sw2) := by
  rw [transmit_append_pair, if_neg (by omega)]

/-- what a successful `transmit` was given -/
theorem transmit_eq_some {cap : Nat} {reply : Option (List Byte)} {body : List Byte}
    {sw : BitVec 16} (h : transmit cap reply = some (body, sw)) :
    ∃ sw1 sw2, reply = some (body ++ [sw1, sw2]) ∧ sw = swOf sw1 sw2 ∧ body.length + 2 ≤ cap := by
  match reply, h with
  | some raw, h =>
    have hlen : 2 ≤ raw.length := by
      by_contra hr; simp [transmit, show raw.length < 2 by omega] at h
    obtain ⟨x, y, hxy⟩ := List.length_eq_two.mp
      (show (raw.drop (raw.length - 2)).length = 2 by simp; omega)
    rw [← List.take_append_drop (raw.length - 2) raw, hxy, transmit_append_pair] at h
    split at h
    · cases h
    · obtain ⟨rfl, rfl⟩ := Prod.mk.inj (Option.some.inj h)
      refine ⟨x, y, ?_, rfl, by omega⟩
      rw [← hxy, List.take_append_drop]

end Ntag424

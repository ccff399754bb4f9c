import Ntag424.Spec.Cipher

/-! The primitives the protocol sits on, as `ntag424_read.c` computes them: the CMAC subkey
derivation with its byte-wise carry loop, `aes_cmac` with its block-index arithmetic,
the odd-byte truncation, ISO/IEC 9797-1 method 2 padding and its backward-scanning inverse,
and the reflected CRC-32 of `ChangeKey`. -/

namespace Ntag424

/-- the loop of `left_shift_1bit` from the last byte down: the shifted bytes and the carry
out of the first one -/
def shiftCarry : List Byte → List Byte × Byte
  | [] => ([], 0)
  | b :: t =>
    let r := shiftCarry t
    (((b <<< 1) ||| r.2) :: r.1, if b &&& 0x80 ≠ 0 then 1 else 0)

@[simp] theorem length_shiftCarry (l : List Byte) : (shiftCarry l).1.length = l.length := by
  induction l with
  | nil => rfl
  | cons b t ih => simp [shiftCarry, ih]

/-- `left_shift_1bit` -/
def leftShift1bit (x : Block) : Block := ⟨(shiftCarry x.toList).1, by simp⟩

/-- the block `0^15 ‖ 0x87`: xoring it is `k[15] ^= 0x87` -/
def rb : Block := Bytes.ofList (List.replicate 15 0 ++ [0x87])

namespace BlockCipher

variable (aes : BlockCipher)

/-- `generate_cmac_subkeys`: `(K1, K2)` -/
def generateCmacSubkeys (key : Block) : Block × Block :=
  let l := aes.ecbEncrypt key 0
  let k1 := if l.toList.getD 0 0 &&& 0x80 ≠ 0 then (leftShift1bit l).xor rb else leftShift1bit l
  let k2 := if k1.toList.getD 0 0 &&& 0x80 ≠ 0 then (leftShift1bit k1).xor rb else leftShift1bit k1
  (k1, k2)

/-- `aes_cmac`, which cannot fail once `aes_ecb_encrypt` does not -/
def aesCmac (key : Block) (msg : List Byte) : Block :=
  let ks := aes.generateCmacSubkeys key
  let n := if (msg.length + 15) / 16 = 0 then 1 else (msg.length + 15) / 16
  let lastBlock : Block :=
    if msg.length ≠ 0 ∧ msg.length % 16 = 0 then
      (Bytes.ofList (msg.drop (16 * (n - 1)))).xor ks.1
    else
      let lastLen := if msg.length = 0 then 0 else msg.length - 16 * (n - 1)
      (Bytes.ofList ((msg.drop (16 * (n - 1))).take lastLen ++ [0x80])).xor ks.2
  let x := (List.range (n - 1)).foldl
    (fun x i => aes.ecbEncrypt key (x.xor (Bytes.ofList (msg.drop (16 * i))))) 0
  aes.ecbEncrypt key (x.xor lastBlock)

end BlockCipher

/-- `cmac_truncate_8`: the bytes at the odd indices 1, 3, …, 15 -/
def cmacTruncate8 (cmac : Block) : List Byte :=
  (List.range 8).map fun i => cmac.toList.getD (1 + i * 2) 0

@[simp] theorem length_cmacTruncate8 (cmac : Block) : (cmacTruncate8 cmac).length = 8 := by
  simp [cmacTruncate8]

/-- `pad_iso9797_m2`: the bytes written to `out` and the returned length -/
def padIso9797M2 (input : List Byte) : List Byte × Nat :=
  let padLen := 16 - input.length % 16
  let padLen := if padLen = 0 then 16 else padLen
  (input ++ 0x80 :: List.replicate (padLen - 1) 0, input.length + padLen)

/-- the scan `while (i >= 0 && buf[i] == 0x00) i--` of `unpad_iso9797_m2`, on `k = i + 1` -/
def skipZeros (buf : List Byte) : Nat → Nat
  | 0 => 0
  | k + 1 => if buf.getD k 0 = 0 then skipZeros buf k else k + 1

/-- `unpad_iso9797_m2(buf, len)` with `len = buf.length` -/
def unpadIso9797M2 (buf : List Byte) : Nat :=
  if buf.length = 0 then 0
  else
    let k := skipZeros buf buf.length
    if k ≠ 0 ∧ buf.getD (k - 1) 0 = 0x80 then k - 1 else buf.length

/-- one of the eight shifts of the inner loop of `crc32_ieee` -/
def crcShift (crc : BitVec 32) : BitVec 32 :=
  if crc &&& 1 ≠ 0 then (crc >>> 1) ^^^ 0xEDB88320 else crc >>> 1

/-- `crc32_ieee`: reflected, register initialised to `0xFFFFFFFF`, no final inversion -/
def crc32Ieee (data : List Byte) : BitVec 32 :=
  data.foldl (fun crc b => crcShift^[8] (crc ^^^ b.setWidth 32)) 0xFFFFFFFF

end Ntag424

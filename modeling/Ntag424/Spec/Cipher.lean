import Ntag424.Spec.Bytes

/-! AES-128 as the C code reaches it through CommonCrypto's `CCCrypt`. The cipher itself is
left abstract: a keyed permutation of 16-byte blocks, given by both directions and the two
inverse laws. `aes_ecb_encrypt` is one application of it; `aes_cbc_crypt` is CBC mode without
padding, which `CCCrypt` refuses (an alignment error) when the input is not a whole number of
blocks. -/

namespace Ntag424

/-- an abstract keyed permutation of blocks, standing for AES-128 -/
structure BlockCipher where
  enc : Block → Block → Block
  dec : Block → Block → Block
  dec_enc : ∀ k b, dec k (enc k b) = b
  enc_dec : ∀ k b, enc k (dec k b) = b

attribute [simp] BlockCipher.dec_enc BlockCipher.enc_dec

namespace BlockCipher

variable (aes : BlockCipher)

/-- `aes_ecb_encrypt`: one block, always accepted for a 16-byte key -/
def ecbEncrypt (key block : Block) : Block := aes.enc key block

/-- CBC encryption of `k` blocks of `l`: `c_i = E(c_{i-1} ⊕ p_i)`, `c_0 = iv` -/
def cbcEncrypt (key : Block) : Nat → Block → List Byte → List Byte
  | 0, _, _ => []
  | k + 1, iv, l =>
    let c := aes.enc key (iv.xor (Bytes.ofList l))
    c.toList ++ cbcEncrypt key k c (l.drop 16)

/-- CBC decryption of `k` blocks of `l`: `p_i = D(c_i) ⊕ c_{i-1}`, `c_0 = iv` -/
def cbcDecrypt (key : Block) : Nat → Block → List Byte → List Byte
  | 0, _, _ => []
  | k + 1, iv, l =>
    let c : Block := Bytes.ofList l
    (iv.xor (aes.dec key c)).toList ++ cbcDecrypt key k c (l.drop 16)

/-- `aes_cbc_crypt(encrypt, key, iv, in, in_len, out)`: `none` is the failure return -/
def aesCbcCrypt (encrypt : Bool) (key iv : Block) (input : List Byte) : Option (List Byte) :=
  if input.length % 16 = 0 then
    some (if encrypt then aes.cbcEncrypt key (input.length / 16) iv input
      else aes.cbcDecrypt key (input.length / 16) iv input)
  else none

@[simp] theorem length_cbcEncrypt (key : Block) (k : Nat) (iv : Block) (l : List Byte) :
    (aes.cbcEncrypt key k iv l).length = 16 * k := by
  induction k generalizing iv l with
  | zero => rfl
  | succ k ih => simp [cbcEncrypt, ih]; omega

/-- CBC decryption inverts CBC encryption on whole blocks -/
theorem cbcDecrypt_cbcEncrypt (key : Block) (k : Nat) (iv : Block) (l : List Byte)
    (hl : l.length = 16 * k) : aes.cbcDecrypt key k iv (aes.cbcEncrypt key k iv l) = l := by
  induction k generalizing iv l with
  | zero => simp_all [cbcDecrypt]
  | succ k ih =>
    have hblock : (Bytes.ofList l : Block).toList = l.take 16 :=
      Bytes.toList_ofList_of_le l (by omega)
    simp only [cbcEncrypt, cbcDecrypt, Bytes.ofList_toList_append, dec_enc,
      Bytes.xor_comm iv, Bytes.xor_xor_cancel, hblock, List.drop_left' (Bytes.length_toList _),
      ih _ (l.drop 16) (by rw [List.length_drop, hl]; omega), List.take_append_drop]

theorem aesCbcCrypt_encrypt (key iv : Block) (l : List Byte) (hl : l.length % 16 = 0) :
    aes.aesCbcCrypt true key iv l = some (aes.cbcEncrypt key (l.length / 16) iv l) := by
  simp [aesCbcCrypt, hl]

theorem aesCbcCrypt_decrypt (key iv : Block) (l : List Byte) (hl : l.length % 16 = 0) :
    aes.aesCbcCrypt false key iv l = some (aes.cbcDecrypt key (l.length / 16) iv l) := by
  simp [aesCbcCrypt, hl]

end BlockCipher

end Ntag424

import Ntag424.Proofs.Subkeys

/-! `aes_cmac` is RFC 4493 AES-CMAC. The reference below splits the message into RFC 4493's
blocks `M_1, …, M_n` by recursion on the message, where the code indexes the message with
`n = max 1 ⌈len/16⌉` and `16 * i` offsets; `rfcBlocks_eq` says the two agree, and the
subkeys agree by `generateCmacSubkeys_eq`. -/

namespace Ntag424

/-- RFC 4493's `M_1, …, M_n`: 16-byte blocks, the last one short or empty, one empty block
for the empty message -/
def rfcBlocks (m : List Byte) : List (List Byte) :=
  if _h : m.length ≤ 16 then [m] else m.take 16 :: rfcBlocks (m.drop 16)
termination_by m.length
decreasing_by simp_wf; omega

namespace BlockCipher

variable (aes : BlockCipher)

/-- RFC 4493 AES-CMAC over the abstract cipher: zero-IV CBC-MAC of `M_1, …, M_{n-1}` and
the last block, which is `M_n ⊕ K1` when `M` is a nonempty whole number of blocks and
`(M_n ‖ 0x80 ‖ 0…0) ⊕ K2` otherwise -/
def rfc4493Cmac (key : Block) (m : List Byte) : Block :=
  let k1 := dbl (aes.enc key 0)
  let k2 := dbl k1
  let ms := rfcBlocks m
  let mn := ms.getLastD []
  let last : Block :=
    if m ≠ [] ∧ m.length % 16 = 0 then (Bytes.ofList mn).xor k1
    else (Bytes.ofList (mn ++ [0x80])).xor k2
  (ms.dropLast.map Bytes.ofList ++ [last]).foldl (fun x b => aes.enc key (x.xor b)) 0

end BlockCipher

/-- the block count of `aes_cmac` -/
def cmacBlockCount (m : List Byte) : Nat :=
  if (m.length + 15) / 16 = 0 then 1 else (m.length + 15) / 16

theorem cmacBlockCount_drop (m : List Byte) (h : 16 < m.length) :
    cmacBlockCount m = cmacBlockCount (m.drop 16) + 1 := by
  simp only [cmacBlockCount, List.length_drop]; split <;> split <;> omega

theorem rfcBlocks_eq (m : List Byte) :
    rfcBlocks m = (List.range (cmacBlockCount m - 1)).map (fun i => (m.drop (16 * i)).take 16) ++
      [m.drop (16 * (cmacBlockCount m - 1))] := by
  induction m using rfcBlocks.induct with
  | case1 m h =>
    rw [rfcBlocks, dif_pos h, show cmacBlockCount m - 1 = 0 by
      simp only [cmacBlockCount]; split <;> omega]
    simp
  | case2 m h ih =>
    rw [rfcBlocks, dif_neg h, ih, cmacBlockCount_drop m (by omega), Nat.add_sub_cancel]
    obtain ⟨k, hk⟩ : ∃ k, cmacBlockCount (m.drop 16) = k + 1 :=
      ⟨_, (Nat.succ_pred_eq_of_pos (by simp only [cmacBlockCount]; split <;> omega)).symm⟩
    simp [hk, List.range_succ_eq_map, List.drop_drop, Nat.mul_add, Nat.add_comm]

theorem aesCmac_eq_rfc4493Cmac (aes : BlockCipher) (key : Block) (msg : List Byte) :
    aes.aesCmac key msg = aes.rfc4493Cmac key msg := by
  have hn : (if (msg.length + 15) / 16 = 0 then 1 else (msg.length + 15) / 16) =
      cmacBlockCount msg := rfl
  have hlast : (msg.drop (16 * (cmacBlockCount msg - 1))).take
      (if msg = [] then 0 else msg.length - 16 * (cmacBlockCount msg - 1)) =
      msg.drop (16 * (cmacBlockCount msg - 1)) := by
    apply List.take_of_length_le
    split <;> simp_all
  simp only [BlockCipher.aesCmac, BlockCipher.rfc4493Cmac, generateCmacSubkeys_eq, rfcBlocks_eq,
    List.dropLast_concat, List.getLastD_eq_getLast?, List.getLast?_concat, Option.getD_some,
    List.map_map, List.foldl_append, List.foldl_map, List.foldl_cons, List.foldl_nil,
    BlockCipher.ecbEncrypt, Function.comp_def, Bytes.ofList_take, hn, ne_eq,
    List.length_eq_zero, hlast]

end Ntag424

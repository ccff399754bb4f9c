import Ntag424.Spec.Commands
import Ntag424.Proofs.SecureMessaging
import Ntag424.Proofs.FileSettings

/-! The commands around secure messaging, against what the card does with them.
`write_ndef_file_plain` returns 1 exactly when the card accepts the two `SELECT`s and each of
the `⌈len / 255⌉` chunks, and then its `UPDATE BINARY`s write `data` at offsets `0` to
`len - 1` of the file and nothing else. From the cryptogram of `change_key` the card,
decrypting under the session keys and reading with the old key, recovers the new key and its
version, the CRC checking. `get_sdm_read_counter` reads back a three-byte counter, and so does
`main`'s secure read from a card that shares the session. `get_uid` and `get_ats` copy out
any accepted answer whole, up to 510 bytes, more than `main`'s `uid` and `ats` buffers hold. -/

namespace Ntag424

/-- the card accepts: a reply that fits the buffer, with status `90 00` or `91 00` -/
def Acked (reply : Option (List Byte)) : Prop :=
  ∃ body sw, transmit maxApdu reply = some (body, sw) ∧ swOk sw = true

theorem acked_iff (sw : BitVec 16) (reply : Option (List Byte)) :
    Acked reply ↔ ¬ (!(plainTransmit sw reply).1 || !swOk (plainTransmit sw reply).2) = true := by
  unfold Acked plainTransmit
  split
  · next body sw' h =>
    rw [h, Bool.not_true, Bool.false_or, Bool.not_eq_true', Bool.not_eq_false]
    exact ⟨fun ⟨_, _, he, hs⟩ => (by cases he; exact hs), fun hs => ⟨body, sw', rfl, hs⟩⟩
  · next h =>
    rw [h, Bool.not_false, Bool.true_or]
    exact ⟨fun ⟨_, _, he, _⟩ => (by cases he), fun h => absurd rfl h⟩

theorem plainSelect_ok (apdu : List Byte) (reply : Option (List Byte)) :
    (plainSelect apdu reply).ok = true ↔ Acked reply := by
  rw [acked_iff 0, plainSelect]
  dsimp only
  generalize (plainTransmit 0 reply).1 = a
  generalize swOk (plainTransmit 0 reply).2 = b
  cases a <;> cases b <;> decide

/-- the card's `UPDATE BINARY` on a file image: the `Lc` data bytes at offset `P1 P2` -/
def applyUpdateBinary (img : Nat → Byte) (apdu : List Byte) : Nat → Byte :=
  let off := (apdu.getD 2 0).toNat * 256 + (apdu.getD 3 0).toNat
  let body := (apdu.drop 5).take (apdu.getD 4 0).toNat
  fun i => if off ≤ i ∧ i < off + body.length then body.getD (i - off) 0 else img i

theorem updateBinary_offset {off : Nat} (h : off < 2 ^ 16) :
    (BitVec.ofNat 8 ((off >>> 8) &&& 0xFF)).toNat * 256 + (BitVec.ofNat 8 (off &&& 0xFF)).toNat =
      off := by
  rw [BitVec.toNat_ofNat, BitVec.toNat_ofNat, Nat.shiftRight_eq_div_pow,
    show (0xFF : Nat) = 2 ^ 8 - 1 from rfl, Nat.and_pow_two_sub_one_eq_mod,
    Nat.and_pow_two_sub_one_eq_mod]
  omega

theorem applyUpdateBinary_updateBinaryApdu (img : Nat → Byte) {off : Nat} {chunk : List Byte}
    (hoff : off < 2 ^ 16) (hc : chunk.length < 2 ^ 8) (i : Nat) :
    applyUpdateBinary img (updateBinaryApdu off chunk) i =
      if off ≤ i ∧ i < off + chunk.length then chunk.getD (i - off) 0 else img i := by
  have hl : (BitVec.ofNat 8 chunk.length).toNat = chunk.length := by
    rw [BitVec.toNat_ofNat]; omega
  simp only [applyUpdateBinary, updateBinaryApdu, List.cons_append, List.getD_cons_succ,
    List.getD_cons_zero, List.drop_succ_cons, List.drop_zero, updateBinary_offset hoff, hl,
    List.nil_append, List.take_length]

/-- the chunks that remain from `offset`: `⌈(len - offset) / 255⌉` -/
theorem writeChunks_ok_iff (data : List Byte) (replies : Nat → Option (List Byte)) (offset : Nat)
    (sw : BitVec 16) (k : Nat) :
    (writeChunks data replies offset sw k).ok = true ↔
      ∀ j < (data.length - offset + 254) / 255, Acked (replies (k + j)) := by
  induction offset, sw, k using writeChunks.induct data replies with
  | case1 offset sw k h t hfail =>
    -- the card refuses the first chunk
    rw [writeChunks, dif_pos h]
    simp only [t] at hfail
    simp only [hfail, if_true, Bool.false_eq_true, false_iff, not_forall]
    exact ⟨0, by omega, fun hk => (acked_iff sw _).1 hk hfail⟩
  | case2 offset sw k h chunk t hok ih =>
    -- the card accepts it, and the loop goes on one reply later
    simp only [chunk, t] at hok ih
    rw [writeChunks, dif_pos h]
    simp only [hok, Bool.false_eq_true, if_false, ih]
    have hn : (data.length - offset + 254) / 255 =
        (data.length - (offset + min (data.length - offset) 255) + 254) / 255 + 1 := by omega
    rw [hn]
    constructor
    · intro hall j hj
      cases j with
      | zero => exact (acked_iff sw _).2 hok
      | succ j => rw [show k + (j + 1) = k + 1 + j by omega]; exact hall j (by omega)
    · intro hall j hj
      rw [show k + 1 + j = k + (j + 1) by omega]; exact hall (j + 1) (by omega)
  | case3 offset sw k h =>
    rw [writeChunks, dif_neg h]
    exact iff_of_true rfl fun j hj => absurd hj (by omega)

theorem getD_take_drop (data : List Byte) {offset c i : Nat} (h1 : offset ≤ i)
    (h2 : i < offset + c) : ((data.drop offset).take c).getD (i - offset) 0 = data.getD i 0 := by
  simp only [List.getD_eq_getElem?_getD, List.getElem?_take, show i - offset < c by omega,
    if_true, List.getElem?_drop, Nat.add_sub_cancel' h1]

theorem writeChunks_sent (data : List Byte) (hlen : data.length ≤ 2 ^ 16)
    (replies : Nat → Option (List Byte)) (offset : Nat) (sw : BitVec 16) (k : Nat)
    (hok : (writeChunks data replies offset sw k).ok = true) :
    (writeChunks data replies offset sw k).sw = 0x9000 ∧
      (∀ a ∈ (writeChunks data replies offset sw k).sent, a.length ≤ 5 + 255) ∧
      ∀ img i, (writeChunks data replies offset sw k).sent.foldl applyUpdateBinary img i =
        if offset ≤ i ∧ i < data.length then data.getD i 0 else img i := by
  induction offset, sw, k using writeChunks.induct data replies with
  | case1 offset sw k h t hfail =>
    simp only [t] at hfail
    rw [writeChunks, dif_pos h] at hok
    simp only [hfail, if_true, Bool.false_eq_true] at hok
  | case2 offset sw k h chunk t hacc ih =>
    simp only [chunk, t] at hacc ih
    rw [writeChunks, dif_pos h] at hok ⊢
    simp only [hacc, Bool.false_eq_true, if_false] at hok ⊢
    obtain ⟨hsw, hlens, himg⟩ := ih hok
    have hc : ((data.drop offset).take (min (data.length - offset) 255)).length =
        min (data.length - offset) 255 := by simp only [List.length_take, List.length_drop]; omega
    refine ⟨hsw, ?_, fun img i => ?_⟩
    · -- the new APDU is five bytes of header and at most 255 of data
      intro a ha
      rcases List.mem_cons.1 ha with rfl | ha
      · simp only [updateBinaryApdu, List.length_append, List.length_cons, List.length_nil, hc]
        omega
      · exact hlens a ha
    · -- this chunk writes `[offset, offset + chunk)`, the rest of the loop the bytes after it
      rw [List.foldl_cons, himg, applyUpdateBinary_updateBinaryApdu _ (by omega) (by omega), hc]
      by_cases h1 : offset + min (data.length - offset) 255 ≤ i ∧ i < data.length
      · rw [if_pos h1, if_pos ⟨by omega, h1.2⟩]
      · rw [if_neg h1]
        by_cases h2 : offset ≤ i ∧ i < offset + min (data.length - offset) 255
        · rw [if_pos h2, if_pos ⟨h2.1, by omega⟩, getD_take_drop data h2.1 h2.2]
        · rw [if_neg h2, if_neg (by omega)]
  | case3 offset sw k h =>
    rw [writeChunks, dif_neg h]
    exact ⟨rfl, fun a ha => absurd ha (List.not_mem_nil a), fun img i => by
      rw [List.foldl_nil, if_neg (by omega)]⟩

/-- `write_ndef_file_plain`: when it returns 1, and what it then wrote -/
theorem writeNdefFilePlain_spec (data : List Byte) (hlen : data.length ≤ 2 ^ 16)
    (replies : Nat → Option (List Byte)) :
    ((writeNdefFilePlain data replies).ok = true ↔
      ∀ j < 2 + (data.length + 254) / 255, Acked (replies j)) ∧
    ((writeNdefFilePlain data replies).ok = true →
      (writeNdefFilePlain data replies).sw = 0x9000 ∧
      (∀ a ∈ (writeNdefFilePlain data replies).sent, a.length ≤ maxApdu) ∧
      ∀ img i, ((writeNdefFilePlain data replies).sent.drop 2).foldl applyUpdateBinary img i =
        if i < data.length then data.getD i 0 else img i) := by
  have hsplit : (∀ j < 2 + (data.length + 254) / 255, Acked (replies j)) ↔
      Acked (replies 0) ∧ Acked (replies 1) ∧
        ∀ j < (data.length - 0 + 254) / 255, Acked (replies (2 + j)) := by
    constructor
    · intro h
      exact ⟨h 0 (by omega), h 1 (by omega), fun j hj => h (2 + j) (by omega)⟩
    · rintro ⟨h0, h1, h⟩ j hj
      match j with
      | 0 => exact h0
      | 1 => exact h1
      | j + 2 => rw [Nat.add_comm]; exact h j (by omega)
  rw [hsplit]
  unfold writeNdefFilePlain selectNdefApp selectFile
  by_cases h0 : Acked (replies 0)
  · by_cases h1 : Acked (replies 1)
    · simp only [(plainSelect_ok _ _).2 h0, (plainSelect_ok _ _).2 h1, Bool.not_true,
        Bool.false_eq_true, if_false, h0, h1, true_and]
      refine ⟨writeChunks_ok_iff data replies 0 _ 2, fun hok => ?_⟩
      obtain ⟨hsw, hlens, himg⟩ := writeChunks_sent data hlen replies 0 _ 2 hok
      refine ⟨hsw, fun a ha => ?_, fun img i => ?_⟩
      · simp only [plainSelect, List.singleton_append, List.cons_append, List.nil_append,
          List.mem_cons] at ha
        rcases ha with rfl | rfl | ha
        · decide
        · decide
        · exact (hlens a ha).trans (by decide)
      · rw [List.drop_left' (show ((plainSelect _ (replies 0)).sent ++
          (plainSelect _ (replies 1)).sent).length = 2 from rfl), himg, if_congr
          (and_iff_right (Nat.zero_le i)) rfl rfl]
    · simp only [(plainSelect_ok _ _).2 h0, h1, (plainSelect_ok _ _).not.2 h1, Bool.not_true,
        Bool.not_false, Bool.false_eq_true, if_false, if_true, false_and, and_false, iff_false,
        not_false_eq_true, false_implies, and_self]
  · simp only [h0, (plainSelect_ok _ _).not.2 h0, Bool.not_false, if_true, false_and,
      iff_false, not_false_eq_true, Bool.false_eq_true, false_implies, and_self]

theorem writeNdefFilePlain_file (data : List Byte) (hlen : data.length ≤ 2 ^ 16)
    (replies : Nat → Option (List Byte)) (hok : (writeNdefFilePlain data replies).ok = true)
    (img : Nat → Byte) :
    (List.range data.length).map
      (((writeNdefFilePlain data replies).sent.drop 2).foldl applyUpdateBinary img) = data := by
  have himg := ((writeNdefFilePlain_spec data hlen replies).2 hok).2.2 img
  refine List.ext_getElem (by rw [List.length_map, List.length_range]) fun i h _ => ?_
  rw [List.length_map, List.length_range] at h
  rw [List.getElem_map, List.getElem_range, himg, if_pos h, List.getD_eq_getElem?_getD,
    List.getElem?_eq_getElem h, Option.getD_some]

/-! ### ChangeKey -/

/-- the card's reading of `ChangeKey` data in the format `change_key` sends: the new key is the
first block xor the old key, the version follows, and the four bytes after it, least
significant first, must be the CRC32 of the new key -/
def changeKeyDecode (oldKey : Block) (d : List Byte) : Option (Block × Byte) :=
  let newKey := (Bytes.ofList (d.take 16) : Block).xor oldKey
  if readU24Le (d.drop 17) ||| (d.getD 20 0).setWidth 32 <<< 24 = crc32Ieee newKey.toList
  then some (newKey, d.getD 16 0) else none

theorem readU24Le_or_byte3 (v : BitVec 32) :
    readU24Le (writeU24Le v ++ [((v >>> 24) &&& 0xFF).setWidth 8]) |||
      (((v >>> 24) &&& 0xFF).setWidth 8).setWidth 32 <<< 24 = v := by
  have hlow := toNat_readU24Le_writeU24Le v [((v >>> 24) &&& 0xFF).setWidth 8]
  apply BitVec.eq_of_toNat_eq
  rw [toNat_or_setWidth_shiftLeft _ _ (by rw [hlow]; omega) (by omega), hlow, toNat_byte]
  omega

/-- the card gets the new key and its version back from `key_data`, and the CRC checks -/
theorem changeKeyDecode_changeKeyData (oldKey newKey : Block) (keyVer : Byte) :
    changeKeyDecode oldKey (changeKeyData oldKey newKey keyVer) = some (newKey, keyVer) := by
  have hx : ((newKey.xor oldKey).toList).length = 16 := Bytes.length_toList _
  have hcrc := readU24Le_or_byte3 (crc32Ieee newKey.toList)
  simp only [changeKeyDecode, changeKeyData, List.take_left' hx, Bytes.ofList_toList,
    Bytes.xor_xor_cancel]
  rw [show 17 = ((newKey.xor oldKey).toList).length + 1 by rw [hx], List.drop_append,
    List.getD_append_right _ _ _ _ (by omega), List.getD_append_right _ _ _ _ (by omega), hx]
  exact if_pos hcrc

/-! ### Plain reads -/

/-- `get_uid` and `get_ats` return 1 on a non-empty accepted answer and copy it whole -/
theorem plainGet_eq_some (apdu : List Byte) (reply : Option (List Byte)) (d : List Byte) :
    (plainGet apdu reply).2 = some d ↔
      ∃ sw, transmit maxApdu reply = some (d, sw) ∧ swOk sw = true ∧ d ≠ [] := by
  unfold plainGet
  cases transmit maxApdu reply with
  | none => simp
  | some a =>
    obtain ⟨resp, sw⟩ := a
    by_cases hc : swOk sw = true ∧ resp ≠ []
    · simp only [hc, Bool.true_and, bne_iff_ne, ne_eq, List.length_eq_zero, not_false_eq_true,
        if_true, Option.some.injEq, Prod.mk.injEq]
      exact ⟨fun h => ⟨sw, ⟨h, rfl⟩, hc.1, h ▸ hc.2⟩, fun ⟨_, ⟨h, _⟩, _⟩ => h⟩
    · simp only [Bool.and_eq_true, bne_iff_ne, ne_eq, List.length_eq_zero, hc, if_false,
        reduceCtorEq, Option.some.injEq, Prod.mk.injEq, false_iff, not_exists, not_and,
        Decidable.not_not, and_imp, forall_apply_eq_imp_iff]
      rintro rfl hs
      by_contra hne
      exact hc ⟨hs, hne⟩

/-- a 17-byte `GET UID` answer is copied whole into `main`'s 16-byte `uid` -/
theorem getUid_overruns_uid : ∃ reply d, (getUid reply).2 = some d ∧ mainUidLen < d.length :=
  ⟨_, List.replicate 17 0, (plainGet_eq_some _ _ _).2
    ⟨_, transmit_some _ _ 0x90 0x00 (by decide), by decide, by decide⟩, by decide⟩

/-- a 33-byte `GET ATS` answer is copied whole into `main`'s 32-byte `ats` -/
theorem getAts_overruns_ats : ∃ reply d, (getAts reply).2 = some d ∧ mainAtsLen < d.length :=
  ⟨_, List.replicate 33 0, (plainGet_eq_some _ _ _).2
    ⟨_, transmit_some _ _ 0x90 0x00 (by decide), by decide, by decide⟩, by decide⟩

theorem getFileSettingsPlain_eq_some (outCap : Nat) (reply : Option (List Byte))
    (d : List Byte) (sw : BitVec 16) :
    getFileSettingsPlain outCap reply = (some d, sw) ↔
      transmit maxApdu reply = some (d, sw) ∧ swOk sw = true ∧ d.length ≤ outCap := by
  unfold getFileSettingsPlain
  cases transmit maxApdu reply with
  | none => simp
  | some a =>
    obtain ⟨resp, sw'⟩ := a
    by_cases hc : swOk sw' = true ∧ resp.length ≤ outCap
    · simp only [hc, decide_True, Bool.and_self, if_true, Prod.mk.injEq, Option.some.injEq,
        iff_self_and, and_imp]
      rintro rfl rfl
      exact hc
    · simp only [Bool.and_eq_true, decide_eq_true_eq, hc, if_false, Prod.mk.injEq, reduceCtorEq,
        false_and, Option.some.injEq, false_iff, not_and, not_le, and_imp]
      rintro rfl rfl hs
      exact Nat.lt_of_not_le fun hl => hc ⟨hs, hl⟩

namespace BlockCipher

variable (aes : BlockCipher)

/-- the card's reading of the cryptogram `E` of a Full-mode command: decrypted under `K_enc`
with `IV_C`, the padding stripped -/
def cardCmdData (s : Session) (enc : List Byte) : List Byte :=
  let dec := aes.cbcDecrypt s.kenc (enc.length / 16) (aes.ecbEncrypt s.kenc (ivcIn s)) enc
  dec.take (unpadIso9797M2 dec)

theorem cardCmdData_fullCryptogram (s : Session) (d : List Byte) :
    aes.cardCmdData s (aes.fullCryptogram s.kenc (ivcIn s) d) = d := by
  by_cases hd : d = []
  · subst hd; simp [cardCmdData, fullCryptogram, cbcDecrypt]
  · have hp := length_padIso9797M2_fst d
    rw [padIso9797M2_fst] at hp
    rw [cardCmdData, length_fullCryptogram, if_neg hd, Nat.mul_div_cancel_left _ (by omega),
      fullCryptogram, if_neg hd, ecbEncrypt, cbcDecrypt_cbcEncrypt _ _ _ _ _ hp,
      ← padIso9797M2_fst, unpadIso9797M2_padIso9797M2, padIso9797M2_fst, List.take_left]

theorem ssmCmdFull_apdu {s : Session} (hauth : s.authenticated = true) {cmd : Byte}
    {header data apdu : List Byte} (hw : aes.ssmWrap s cmd header data = some apdu) (outCap : Nat)
    (reply : Option (List Byte)) : (aes.ssmCmdFull s cmd header data outCap reply).apdu = some apdu := by
  unfold ssmCmdFull
  rw [if_neg (by rw [hauth]; decide), hw]
  dsimp only
  split
  · rfl
  · split <;> rfl

theorem ssmCmdFull_sends {s : Session} (hauth : s.authenticated = true) (cmd : Byte)
    (header data : List Byte) (hlc : header.length + data.length + 24 ≤ 255) (outCap : Nat)
    (reply : Option (List Byte)) :
    ∃ enc : List Byte, enc.length ≤ data.length + 16 ∧
      (aes.ssmCmdFull s cmd header data outCap reply).apdu =
        some ([0x90, cmd, 0x00, 0x00, BitVec.ofNat 8 (header.length + enc.length + 8)] ++ header ++
          enc ++ cmacTruncate8 (aes.aesCmac s.kmac (cmd :: le16 s.cmdCtr ++ s.ti.toList ++ header ++
            enc)) ++ [0x00]) ∧
      aes.cardCmdData s enc = data := by
  have hle : (aes.fullCryptogram s.kenc (ivcIn s) data).length ≤ data.length + 16 := by
    rw [length_fullCryptogram]; split <;> omega
  exact ⟨_, hle, ssmCmdFull_apdu aes hauth (ssmWrap_eq aes s cmd header data (by omega)) outCap
    reply, cardCmdData_fullCryptogram aes s data⟩

/-- `change_key` sends `90 C4 00 00 29 KeyNo ‖ E ‖ MACt ‖ 00`, `E` decoding to the new key -/
theorem changeKey_apdu (s : Session) (hauth : s.authenticated = true) (keyNo : Byte)
    (oldKey newKey : Block) (keyVer : Byte) (reply : Option (List Byte)) :
    ∃ enc : List Byte, enc.length = 32 ∧
      (aes.changeKey s keyNo oldKey newKey keyVer reply).apdu =
        some ([0x90, 0xC4, 0x00, 0x00, 0x29, keyNo] ++ enc ++
          cmacTruncate8 (aes.aesCmac s.kmac (0xC4 :: le16 s.cmdCtr ++ s.ti.toList ++ [keyNo] ++ enc)) ++
          [0x00]) ∧
      changeKeyDecode oldKey (aes.cardCmdData s enc) = some (newKey, keyVer) := by
  have hne : changeKeyData oldKey newKey keyVer ≠ [] := by simp [changeKeyData]
  have hlen : (aes.fullCryptogram s.kenc (ivcIn s) (changeKeyData oldKey newKey keyVer)).length =
      32 := by
    rw [length_fullCryptogram, if_neg hne]; simp [changeKeyData]
  refine ⟨_, hlen, ?_, by rw [cardCmdData_fullCryptogram, changeKeyDecode_changeKeyData]⟩
  rw [changeKey, ssmCmdFull_apdu aes hauth (ssmWrap_eq aes s 0xC4 [keyNo] _ (by simp [hlen]))]
  simp only [hlen, List.length_singleton, List.cons_append, List.singleton_append,
    List.append_assoc]
  rfl

/-- the secure read gets back the counter a card sharing the session sends -/
theorem secureReadCounter_honest (s : Session) (hauth : s.authenticated = true) (fileNo : Byte)
    (c : BitVec 32) (hc : c.toNat < 2 ^ 24) (rest : List Byte) (hrest : rest.length ≤ 13)
    (sw2 : Byte) :
    let e := aes.fullCryptogram s.kenc (ivrIn s) (writeU24Le c ++ rest)
    aes.secureReadCounter s fileNo (some (e ++ cmacTruncate8 (aes.aesCmac s.kmac
      (sw2 :: le16 (s.cmdCtr + 1) ++ s.ti.toList ++ e)) ++ [0x91, sw2])) = some c := by
  intro e
  have hp : (writeU24Le c ++ rest).length = 3 + rest.length := by
    rw [List.length_append, length_writeU24Le]
  have hlc : [fileNo].length + (aes.fullCryptogram s.kenc (ivcIn s) []).length + 8 ≤ 255 := by
    rw [length_fullCryptogram]; simp
  have he : (aes.fullCryptogram s.kenc (ivrIn s) (writeU24Le c ++ rest)).length + 8 ≤ 510 := by
    rw [length_fullCryptogram]; split <;> omega
  rw [secureReadCounter, aes.ssmCmdFull_honest s hauth 0xF6 [fileNo] [] _ sw2 16 hlc (by omega) he]
  simp only [hp, Nat.le_add_right, if_true, readU24Le_writeU24Le c hc]

/-- counter `0x0A0B0C` read on a fresh session of the identity cipher -/
theorem secureReadCounter_honest_ident :
    let s : Session := ⟨0, 0, 0, 0, 0, true⟩
    let e := ident.fullCryptogram s.kenc (ivrIn s) (writeU24Le 0x0A0B0C ++ [])
    s.authenticated = true ∧ (0x0A0B0C : BitVec 32).toNat < 2 ^ 24 ∧
      ([] : List Byte).length ≤ 13 ∧
      ident.secureReadCounter s 0x02 (some (e ++ cmacTruncate8 (ident.aesCmac s.kmac
        (0x00 :: le16 (s.cmdCtr + 1) ++ s.ti.toList ++ e)) ++ [0x91, 0x00])) = some 0x0A0B0C :=
  ⟨rfl, by decide, by decide,
    secureReadCounter_honest ident _ rfl 0x02 0x0A0B0C (by decide) [] (by decide) 0x00⟩

end BlockCipher

end Ntag424

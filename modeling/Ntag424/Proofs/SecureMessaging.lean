import Ntag424.Spec.SecureMessaging
import Ntag424.Proofs.Padding

/-! `ssm_cmd_full` against communication mode Full as the protocol describes it. With AES
an abstract permutation, a call on an authenticated session transmits
`90 INS 00 00 Lc ‖ H ‖ E ‖ MACt ‖ 00`, and a card that answers with `C ‖ RMACt` under the
next counter gets its plaintext back and advances the counter. A call returns 1 exactly when
the answer passes the MAC check and then decrypts to a plaintext that fits the caller's
buffer; only such a call touches the session, and then only its counter. Over a run the
counter is the number of calls that returned 1, so two calls share a counter, and with it
the IV and the MAC prefix, exactly when the calls between them that returned 1 number a
multiple of `2 ^ 16`. -/

namespace Ntag424

namespace BlockCipher

variable (aes : BlockCipher)

/-- `AES-CBC(KENC, IV = AES(KENC, ivIn), Pad_M2(D))`, and nothing for empty `D`: the
cryptogram of communication mode Full -/
def fullCryptogram (kenc ivIn : Block) (d : List Byte) : List Byte :=
  if d = [] then []
  else aes.cbcEncrypt kenc (d.length / 16 + 1) (aes.enc kenc ivIn)
    (d ++ 0x80 :: List.replicate (15 - d.length % 16) 0)

/-- the card's answer, body `C ‖ T` with status `SW1 SW2`, passes MAC verification for
session `s`: `SW1 = 0x91`, at least 8 bytes of body, and
`T = Truncate8(CMAC(KMAC, SW2 ‖ (CmdCtr+1) ‖ TI ‖ C))` -/
def MacVerified (s : Session) (body : List Byte) (sw1 sw2 : Byte) : Prop :=
  sw1 = 0x91 ∧ 8 ≤ body.length ∧
    body.drop (body.length - 8) = cmacTruncate8 (aes.aesCmac s.kmac
      (sw2 :: le16 (s.cmdCtr + 1) ++ s.ti.toList ++ body.take (body.length - 8)))

/-- the CBC decryption of `C` under `IVR` -/
def respPlain (s : Session) (body : List Byte) : List Byte :=
  aes.cbcDecrypt s.kenc ((body.length - 8) / 16) (aes.ecbEncrypt s.kenc (ivrIn s))
    (body.take (body.length - 8))

theorem length_fullCryptogram (kenc ivIn : Block) (d : List Byte) :
    (aes.fullCryptogram kenc ivIn d).length = if d = [] then 0 else 16 * (d.length / 16 + 1) := by
  unfold fullCryptogram; split <;> simp

theorem aesCbcCrypt_padIso9797M2 (kenc ivIn : Block) {d : List Byte} (hd : d ≠ []) :
    aes.aesCbcCrypt true kenc (aes.enc kenc ivIn) (padIso9797M2 d).1 =
      some (aes.fullCryptogram kenc ivIn d) := by
  rw [aesCbcCrypt_encrypt _ _ _ _ (by simp), length_padIso9797M2_fst,
    Nat.mul_div_cancel_left _ (by omega), padIso9797M2_fst, fullCryptogram, if_neg hd]

/-- the wrap of a command whose data field fits a short APDU -/
theorem ssmWrap_eq (s : Session) (ins : Byte) (h d : List Byte)
    (hlc : h.length + (aes.fullCryptogram s.kenc (ivcIn s) d).length + 8 ≤ 255) :
    aes.ssmWrap s ins h d =
      let e := aes.fullCryptogram s.kenc (ivcIn s) d
      some ([0x90, ins, 0x00, 0x00, BitVec.ofNat 8 (h.length + e.length + 8)] ++ h ++ e ++
        cmacTruncate8 (aes.aesCmac s.kmac (ins :: le16 s.cmdCtr ++ s.ti.toList ++ h ++ e)) ++
        [0x00]) := by
  rw [length_fullCryptogram] at hlc
  by_cases hd : d = []
  · subst hd
    simp [ssmWrap, fullCryptogram, show ¬ 255 < h.length + 8 by omega]
  · have hlen : d.length ≠ 0 := by simpa using hd
    have hpad : ¬ maxApdu < (padIso9797M2 d).2 := by
      rw [padIso9797M2_snd, maxApdu]; rw [if_neg hd] at hlc; omega
    simp only [ssmWrap, ecbEncrypt, Nat.pos_iff_ne_zero, hlen, hpad, ne_eq, not_false_eq_true,
      if_true, if_false, aesCbcCrypt_padIso9797M2 _ _ _ hd]
    simp [show ¬ 255 < h.length + (aes.fullCryptogram s.kenc (ivcIn s) d).length + 8 by
      rw [length_fullCryptogram]; omega, failure]

/-- every call that writes past `mac_input[512]` is one the check of line 703 refuses -/
theorem ssmWrap_macInput_overrun (s : Session) (ins : Byte) (h d : List Byte)
    (hover : maxApdu < 7 + h.length + (aes.fullCryptogram s.kenc (ivcIn s) d).length) :
    aes.ssmWrap s ins h d = none := by
  rw [length_fullCryptogram, maxApdu] at hover
  by_cases hd : d = []
  · subst hd
    simp [ssmWrap, show 255 < h.length + 8 by simp at hover; omega, failure]
  · have hlen : d.length ≠ 0 := by simpa using hd
    rw [if_neg hd] at hover
    by_cases hpad : maxApdu < (padIso9797M2 d).2
    · simp [ssmWrap, hlen, hpad, failure]
    · simp only [ssmWrap, ecbEncrypt, Nat.pos_iff_ne_zero, hlen, hpad, ne_eq, not_false_eq_true,
        if_true, if_false, aesCbcCrypt_padIso9797M2 _ _ _ hd]
      simp [show 255 < h.length + (aes.fullCryptogram s.kenc (ivcIn s) d).length + 8 by
        rw [length_fullCryptogram, if_neg hd]; omega, failure]

/-- the unwrap succeeds exactly on a MAC-checked answer that decrypts within the buffer -/
theorem ssmUnwrap_eq_some_iff (s : Session) (outCap : Nat) (body : List Byte) (sw1 sw2 : Byte)
    (p : List Byte) :
    aes.ssmUnwrap s outCap body (swOf sw1 sw2) = some p ↔
      aes.MacVerified s body sw1 sw2 ∧ (body.length - 8) % 16 = 0 ∧
        unpadIso9797M2 (aes.respPlain s body) ≤ outCap ∧
        p = (aes.respPlain s body).take (unpadIso9797M2 (aes.respPlain s body)) := by
  unfold ssmUnwrap MacVerified respPlain
  simp only [ne_eq, swOf_and_ff00_eq, swOf_sw2]
  by_cases h1 : sw1 = 0x91
  swap
  · simp only [h1, false_and, not_false_eq_true, if_true, iff_false]; simp [failure]
  by_cases h2 : body.length < 8
  · simp only [h1, h2, not_true_eq_false, if_true, if_false]; simp [failure, Nat.not_le.mpr h2]
  have hc : (body.take (body.length - 8)).length = body.length - 8 := by simp
  by_cases h3 : body.drop (body.length - 8) = cmacTruncate8 (aes.aesCmac s.kmac
      (sw2 :: le16 (s.cmdCtr + 1) ++ s.ti.toList ++ body.take (body.length - 8)))
  swap
  · simp only [h3, false_and, and_false, not_false_eq_true, if_true, iff_false]; simp [failure]
  simp only [h1, h2, h3, hc, not_true_eq_false, not_false_eq_true, if_false, true_and,
    gt_iff_lt, le_of_not_lt h2]
  by_cases h4 : body.length - 8 = 0
  · simp [h4, cbcDecrypt, unpadIso9797M2, eq_comm]
  · simp only [Nat.pos_iff_ne_zero, ne_eq, h4, not_false_eq_true, if_true, aesCbcCrypt, hc]
    by_cases h5 : (body.length - 8) % 16 = 0
    · by_cases h6 : outCap < unpadIso9797M2 (aes.cbcDecrypt s.kenc ((body.length - 8) / 16)
          (aes.ecbEncrypt s.kenc (ivrIn s)) (body.take (body.length - 8)))
      · simp [h5, h6, failure]
      · simp [h5, h6, eq_comm, le_of_not_lt h6]
    · simp [h5]

theorem ivcIn_eq (s : Session) :
    ivcIn s = ⟨[0xA5, 0x5A] ++ s.ti.toList ++ le16 s.cmdCtr ++ List.replicate 8 0, by simp⟩ :=
  Bytes.ext (by rw [ivcIn, Bytes.toList_ofList_of_length_le _ (by simp)]; simp)

theorem ivrIn_eq (s : Session) :
    ivrIn s = ⟨[0x5A, 0xA5] ++ s.ti.toList ++ le16 (s.cmdCtr + 1) ++ List.replicate 8 0, by simp⟩ :=
  Bytes.ext (by rw [ivrIn, Bytes.toList_ofList_of_length_le _ (by simp)]; simp)

theorem ssmUnwrap_honest (s : Session) (outCap : Nat) (p : List Byte) (sw2 : Byte)
    (hp : p.length ≤ outCap) :
    aes.ssmUnwrap s outCap (aes.fullCryptogram s.kenc (ivrIn s) p ++
      cmacTruncate8 (aes.aesCmac s.kmac
        (sw2 :: le16 (s.cmdCtr + 1) ++ s.ti.toList ++ aes.fullCryptogram s.kenc (ivrIn s) p)))
      (swOf 0x91 sw2) = some p := by
  generalize hc : aes.fullCryptogram s.kenc (ivrIn s) p = c
  have hlen : c.length = if p = [] then 0 else 16 * (p.length / 16 + 1) := by
    rw [← hc, length_fullCryptogram]
  have hsplit : (c ++ cmacTruncate8 (aes.aesCmac s.kmac
      (sw2 :: le16 (s.cmdCtr + 1) ++ s.ti.toList ++ c))).length - 8 = c.length := by simp
  -- `C` decrypts to `p` padded
  have hplain : aes.respPlain s (c ++ cmacTruncate8 (aes.aesCmac s.kmac
      (sw2 :: le16 (s.cmdCtr + 1) ++ s.ti.toList ++ c))) =
      if p = [] then [] else (padIso9797M2 p).1 := by
    rw [respPlain, hsplit, List.take_left' rfl, ecbEncrypt]
    by_cases hp0 : p = []
    · simp [← hc, hp0, fullCryptogram, cbcDecrypt]
    · rw [if_neg hp0] at hlen ⊢
      rw [hlen, Nat.mul_div_cancel_left _ (by omega), ← hc, fullCryptogram, if_neg hp0,
        ← padIso9797M2_fst, cbcDecrypt_cbcEncrypt _ _ _ _ _ (length_padIso9797M2_fst p)]
  refine (aes.ssmUnwrap_eq_some_iff _ _ _ _ _ _).2 ⟨⟨rfl, by simp, ?_⟩, ?_, ?_, ?_⟩
  · rw [hsplit, List.drop_left' rfl, List.take_left' rfl]
  · rw [hsplit, hlen]; split <;> omega
  · rw [hplain]; split
    · exact Nat.zero_le _
    · rwa [unpadIso9797M2_padIso9797M2]
  · rw [hplain]; split
    · simp_all
    · rw [unpadIso9797M2_padIso9797M2, padIso9797M2_fst, List.take_left' rfl]

/-- only a call that returns 1 touches the session, and then only its counter -/
theorem ssmCmdFull_cases (s : Session) (cmd : Byte) (header data : List Byte) (outCap : Nat)
    (reply : Option (List Byte)) :
    let r := aes.ssmCmdFull s cmd header data outCap reply
    (r.ok = true ∧ r.sess = { s with cmdCtr := s.cmdCtr + 1 }) ∨ (r.ok = false ∧ r.sess = s) := by
  unfold ssmCmdFull
  split
  · simp
  split
  · simp
  split
  · simp
  split <;> simp

theorem ssmCmdFull_ok_iff (s : Session) (cmd : Byte) (header data : List Byte) (outCap : Nat)
    (reply : Option (List Byte)) :
    (aes.ssmCmdFull s cmd header data outCap reply).ok = true ↔
      (aes.ssmCmdFull s cmd header data outCap reply).apdu.isSome ∧ ∃ body sw1 sw2,
        transmit maxApdu reply = some (body, swOf sw1 sw2) ∧ aes.MacVerified s body sw1 sw2 ∧
        (body.length - 8) % 16 = 0 ∧ unpadIso9797M2 (aes.respPlain s body) ≤ outCap := by
  unfold ssmCmdFull
  split
  · simp
  split
  · simp
  split
  · rename_i htr; simp [htr]
  rename_i resp sw htr
  obtain ⟨sw1, sw2, -, rfl, -⟩ := transmit_eq_some htr
  simp only [htr, Option.some.injEq, Prod.mk.injEq, swOf_inj]
  split
  · rename_i hu
    simp only [Option.isSome_some, Bool.false_eq_true, true_and, false_iff, not_exists, not_and]
    rintro _ _ _ ⟨rfl, rfl, rfl⟩ hm h16 hcap
    rw [(aes.ssmUnwrap_eq_some_iff _ _ _ _ _ _).2 ⟨hm, h16, hcap, rfl⟩] at hu
    cases hu
  · rename_i p hu
    obtain ⟨hm, h16, hcap, -⟩ := (aes.ssmUnwrap_eq_some_iff _ _ _ _ _ _).1 hu
    simp only [Option.isSome_some, true_and, true_iff]
    exact ⟨_, _, _, ⟨rfl, rfl, rfl⟩, hm, h16, hcap⟩

@[simp] theorem length_ssmTrace (s : Session) (calls : List SsmCall) :
    (aes.ssmTrace s calls).length = calls.length := by
  induction calls generalizing s <;> simp_all [ssmTrace]

/-- the counter after a run counts the calls that returned 1, modulo `2 ^ 16` -/
theorem ssmFinal_eq (s : Session) (calls : List SsmCall) :
    aes.ssmFinal s calls =
      { s with cmdCtr := s.cmdCtr + BitVec.ofNat 16 ((aes.ssmTrace s calls).countP (·.2.ok)) } := by
  induction calls generalizing s with
  | nil => simp [ssmFinal, ssmTrace]
  | cons c cs ih =>
    rw [ssmFinal, ih, ssmTrace, List.countP_cons, ssmCall]
    rcases aes.ssmCmdFull_cases s c.cmd c.header c.data c.outCap c.reply with ⟨hok, hs⟩ | ⟨hok, hs⟩
    · simp [hok, hs, BitVec.ofNat_add, add_assoc, add_comm]
    · simp [hok, hs]

theorem ssmTrace_getElem_fst (s : Session) (calls : List SsmCall) (i : Nat)
    (hi : i < (aes.ssmTrace s calls).length) :
    (aes.ssmTrace s calls)[i].1 = aes.ssmFinal s (calls.take i) := by
  induction calls generalizing s i with
  | nil => simp at hi
  | cons c cs ih =>
    cases i with
    | zero => rfl
    | succ i => simp only [ssmTrace, List.getElem_cons_succ, ih, List.take_succ_cons, ssmFinal]

theorem ssmTrace_take (s : Session) (calls : List SsmCall) (i : Nat) :
    (aes.ssmTrace s calls).take i = aes.ssmTrace s (calls.take i) := by
  induction calls generalizing s i with
  | nil => simp [ssmTrace]
  | cons c cs ih => cases i <;> simp [ssmTrace, ih]

/-- the identity permutation, a cipher under which concrete exchanges evaluate -/
def ident : BlockCipher := ⟨fun _ b => b, fun _ b => b, fun _ _ => rfl, fun _ _ => rfl⟩

theorem ssmCmdFull_honest (s : Session) (hauth : s.authenticated = true) (ins : Byte)
    (h d p : List Byte) (sw2 : Byte) (outCap : Nat)
    (hlc : h.length + (aes.fullCryptogram s.kenc (ivcIn s) d).length + 8 ≤ 255)
    (hp : p.length ≤ outCap) (hc : (aes.fullCryptogram s.kenc (ivrIn s) p).length + 8 ≤ 510) :
    let c := aes.fullCryptogram s.kenc (ivrIn s) p
    aes.ssmCmdFull s ins h d outCap (some (c ++
      cmacTruncate8 (aes.aesCmac s.kmac (sw2 :: le16 (s.cmdCtr + 1) ++ s.ti.toList ++ c)) ++
      [0x91, sw2])) =
      ⟨true, { s with cmdCtr := s.cmdCtr + 1 }, aes.ssmWrap s ins h d, some (swOf 0x91 sw2),
        some p⟩ := by
  have ht := transmit_some maxApdu (aes.fullCryptogram s.kenc (ivrIn s) p ++
    cmacTruncate8 (aes.aesCmac s.kmac (sw2 :: le16 (s.cmdCtr + 1) ++ s.ti.toList ++
      aes.fullCryptogram s.kenc (ivrIn s) p))) 0x91 sw2 (by simp [maxApdu]; omega)
  simp only [ssmCmdFull, hauth, Bool.true_eq_false, if_false, aes.ssmWrap_eq s ins h d hlc, ht,
    aes.ssmUnwrap_honest s outCap p sw2 hp]

theorem ssmCmdFull_wrap_unwrap (s : Session) (hauth : s.authenticated = true) (ins : Byte)
    (h d p : List Byte) (sw2 : Byte) (outCap : Nat)
    (hlc : h.length + (aes.fullCryptogram s.kenc
      ⟨[0xA5, 0x5A] ++ s.ti.toList ++ le16 s.cmdCtr ++ List.replicate 8 0, by simp⟩ d).length + 8
        ≤ 255)
    (hp : p.length ≤ outCap)
    (hc : (aes.fullCryptogram s.kenc
      ⟨[0x5A, 0xA5] ++ s.ti.toList ++ le16 (s.cmdCtr + 1) ++ List.replicate 8 0, by simp⟩ p).length
        + 8 ≤ 510) :
    let e := aes.fullCryptogram s.kenc
      ⟨[0xA5, 0x5A] ++ s.ti.toList ++ le16 s.cmdCtr ++ List.replicate 8 0, by simp⟩ d
    let c := aes.fullCryptogram s.kenc
      ⟨[0x5A, 0xA5] ++ s.ti.toList ++ le16 (s.cmdCtr + 1) ++ List.replicate 8 0, by simp⟩ p
    let r := aes.ssmCmdFull s ins h d outCap (some (c ++
      cmacTruncate8 (aes.aesCmac s.kmac (sw2 :: le16 (s.cmdCtr + 1) ++ s.ti.toList ++ c)) ++
      [0x91, sw2]))
    r.apdu = some ([0x90, ins, 0x00, 0x00, BitVec.ofNat 8 (h.length + e.length + 8)] ++ h ++ e ++
        cmacTruncate8 (aes.aesCmac s.kmac (ins :: le16 s.cmdCtr ++ s.ti.toList ++ h ++ e)) ++
        [0x00]) ∧
      r.ok = true ∧ r.out = some p ∧ r.sess = { s with cmdCtr := s.cmdCtr + 1 } ∧
      r.sess.cmdCtr.toNat = (s.cmdCtr.toNat + 1) % 2 ^ 16 := by
  rw [← ivcIn_eq] at hlc ⊢
  rw [← ivrIn_eq] at hc ⊢
  dsimp only
  rw [aes.ssmCmdFull_honest s hauth ins h d p sw2 outCap hlc hp hc, aes.ssmWrap_eq s ins h d hlc]
  exact ⟨rfl, rfl, rfl, rfl, BitVec.toNat_add _ _⟩

theorem ssmCmdFull_wrap_unwrap_ident :
    let s : Session := ⟨0, 0, 0, 0, 0, true⟩
    let e := ident.fullCryptogram s.kenc
      ⟨[0xA5, 0x5A] ++ s.ti.toList ++ le16 s.cmdCtr ++ List.replicate 8 0, by simp⟩ [0x01]
    let c := ident.fullCryptogram s.kenc
      ⟨[0x5A, 0xA5] ++ s.ti.toList ++ le16 (s.cmdCtr + 1) ++ List.replicate 8 0, by simp⟩ [0x02]
    let r := ident.ssmCmdFull s 0xF5 [0x02] [0x01] 1 (some (c ++
      cmacTruncate8 (ident.aesCmac s.kmac (0x00 :: le16 (s.cmdCtr + 1) ++ s.ti.toList ++ c)) ++
      [0x91, 0x00]))
    s.authenticated = true ∧ [0x02].length + e.length + 8 ≤ 255 ∧ [0x02].length ≤ 1 ∧
      c.length + 8 ≤ 510 ∧
    (r.apdu = some ([0x90, 0xF5, 0x00, 0x00, BitVec.ofNat 8 ([0x02].length + e.length + 8)] ++
        [0x02] ++ e ++
        cmacTruncate8 (ident.aesCmac s.kmac (0xF5 :: le16 s.cmdCtr ++ s.ti.toList ++ [0x02] ++ e)) ++
        [0x00]) ∧
      r.ok = true ∧ r.out = some [0x02] ∧ r.sess = { s with cmdCtr := s.cmdCtr + 1 } ∧
      r.sess.cmdCtr.toNat = (s.cmdCtr.toNat + 1) % 2 ^ 16) :=
  ⟨rfl, by decide, le_rfl, by decide,
    ssmCmdFull_wrap_unwrap ident ⟨0, 0, 0, 0, 0, true⟩ rfl 0xF5 [0x02] [0x01] [0x02] 0x00 1
      (by decide) le_rfl (by decide)⟩

theorem ssmCmdFull_cmdCtr_iff (s : Session) (calls : List SsmCall) :
    (∀ c : SsmCall,
      ((aes.ssmCall s c).ok = true ∧ (aes.ssmCall s c).sess = { s with cmdCtr := s.cmdCtr + 1 } ∨
        (aes.ssmCall s c).ok = false ∧ (aes.ssmCall s c).sess = s) ∧
      ((aes.ssmCall s c).ok = true ↔ (aes.ssmCall s c).apdu.isSome ∧ ∃ body sw1 sw2,
        transmit maxApdu c.reply = some (body, swOf sw1 sw2) ∧ aes.MacVerified s body sw1 sw2 ∧
        (body.length - 8) % 16 = 0 ∧ unpadIso9797M2 (aes.respPlain s body) ≤ c.outCap)) ∧
    aes.ssmFinal s calls =
      { s with cmdCtr := s.cmdCtr + BitVec.ofNat 16 ((aes.ssmTrace s calls).countP (·.2.ok)) } :=
  ⟨fun c => ⟨aes.ssmCmdFull_cases s c.cmd c.header c.data c.outCap c.reply,
    aes.ssmCmdFull_ok_iff s c.cmd c.header c.data c.outCap c.reply⟩, aes.ssmFinal_eq s calls⟩

/-- the all-zero handshake under the identity cipher: `RndA = RndB = TI = 0` -/
def zeroAuth : AuthResult :=
  ident.authenticateEv2First 0 0 0 (some (List.replicate 16 0 ++ [0x91, 0xAF]))
    (some (List.replicate 32 0 ++ [0x91, 0x00])) ⟨0, 0, 0, 0, 0, false⟩

/-- a MAC-checked one-byte answer fails at decryption and leaves the counter -/
theorem ssmCmdFull_macVerified_counter_kept :
    let s := zeroAuth.sess
    let body := [0x00] ++ cmacTruncate8 (ident.aesCmac s.kmac
      (0x00 :: le16 (s.cmdCtr + 1) ++ s.ti.toList ++ [0x00]))
    zeroAuth.ok = true ∧
      transmit maxApdu (some (body ++ [0x91, 0x00])) = some (body, swOf 0x91 0x00) ∧
      ident.MacVerified s body 0x91 0x00 ∧
      (ident.ssmCmdFull s 0x51 [] [] 0 (some (body ++ [0x91, 0x00]))).sess.cmdCtr = s.cmdCtr :=
  ⟨by decide, transmit_some _ _ _ _ (by decide), ⟨rfl, by decide, rfl⟩, by decide⟩

theorem add_ofNat_eq_add_ofNat_iff (x : BitVec 16) (a m : Nat) :
    x + BitVec.ofNat 16 a = x + BitVec.ofNat 16 (a + m) ↔ m % 2 ^ 16 = 0 := by
  rw [add_right_inj, BitVec.toNat_eq, BitVec.toNat_ofNat, BitVec.toNat_ofNat]
  omega

theorem ssmTrace_getElem_fst_eq (s : Session) (calls : List SsmCall) (k : Nat)
    (hk : k < (aes.ssmTrace s calls).length) :
    (aes.ssmTrace s calls)[k].1 =
      { s with
        cmdCtr := s.cmdCtr + BitVec.ofNat 16 (((aes.ssmTrace s calls).take k).countP (·.2.ok)) } := by
  rw [ssmTrace_getElem_fst, ssmFinal_eq, ssmTrace_take]

theorem ssmTrace_cmdCtr_eq_iff (s : Session) (calls : List SsmCall) (i j : Nat) (hij : i < j)
    (hj : j < (aes.ssmTrace s calls).length) :
    ((aes.ssmTrace s calls)[i].1.cmdCtr = (aes.ssmTrace s calls)[j].1.cmdCtr ↔
      (((aes.ssmTrace s calls).drop i).take (j - i)).countP (·.2.ok) % 2 ^ 16 = 0) ∧
    ((aes.ssmTrace s calls)[i].1.cmdCtr = (aes.ssmTrace s calls)[j].1.cmdCtr →
      (aes.ssmTrace s calls)[i].1 = (aes.ssmTrace s calls)[j].1) := by
  rw [aes.ssmTrace_getElem_fst_eq s calls i (by omega), aes.ssmTrace_getElem_fst_eq s calls j hj]
  obtain ⟨m, rfl⟩ : ∃ m, j = i + m := ⟨j - i, by omega⟩
  rw [List.take_add, List.countP_append, Nat.add_sub_cancel_left, add_ofNat_eq_add_ofNat_iff]
  exact ⟨Iff.rfl, fun h => by rw [(add_ofNat_eq_add_ofNat_iff _ _ _).2 h]⟩

theorem ssmTrace_cmdCtr_eq_iff_ident :
    let s : Session := ⟨0, 0, 0, 0, 0, true⟩
    let calls : List SsmCall := [⟨0x51, [], [], 0, some [0x6A, 0x82]⟩, ⟨0x51, [], [], 0, none⟩]
    0 < 1 ∧ 1 < (ident.ssmTrace s calls).length ∧
    ((ident.ssmTrace s calls)[0].1.cmdCtr = (ident.ssmTrace s calls)[1].1.cmdCtr ↔
      (((ident.ssmTrace s calls).drop 0).take (1 - 0)).countP (·.2.ok) % 2 ^ 16 = 0) ∧
    ((ident.ssmTrace s calls)[0].1.cmdCtr = (ident.ssmTrace s calls)[1].1.cmdCtr →
      (ident.ssmTrace s calls)[0].1 = (ident.ssmTrace s calls)[1].1) :=
  ⟨Nat.one_pos, by decide, ssmTrace_cmdCtr_eq_iff ident _ _ 0 1 Nat.one_pos (by decide)⟩

/-- a call failing after transmission leaves the counter; the next resends its APDU -/
theorem ssmTrace_cmdCtr_reused :
    let c : SsmCall := ⟨0x51, [], [], 0, some [0x6A, 0x82]⟩
    zeroAuth.ok = true ∧ ∃ apdu,
      (ident.ssmTrace zeroAuth.sess [c, c]).map (fun e => (e.1.cmdCtr, e.2.apdu)) =
        [(0, some apdu), (0, some apdu)] :=
  ⟨by decide, _, rfl⟩

end BlockCipher

end Ntag424

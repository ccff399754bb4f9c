import Ntag424.Spec.Session

/-! EV2-First, with AES an abstract keyed permutation. Against a card that answers as the
protocol says, the handshake succeeds for every key, nonce pair and transaction id, and
derives `KENC = CMAC(K, SV1)` and `KMAC = CMAC(K, SV2)`. The second APDU carries
`RndA ‖ rotl1(RndB)` under CBC, from which the card recovers both nonces. When the card's
second answer does not return `rotl1(RndA)` in bytes 4 to 19, the handshake fails and leaves
the session as it was. -/

namespace Ntag424

namespace BlockCipher

variable (aes : BlockCipher)

/-- a failed handshake leaves the session; a successful one starts a fresh one at counter 0 -/
theorem authenticateEv2First_sess (key : Block) (keyNo : Byte) (rndA : Block)
    (r1 r2 : Option (List Byte)) (sess : Session) :
    let res := aes.authenticateEv2First key keyNo rndA r1 r2 sess
    (res.ok = false → res.sess = sess) ∧
      (res.ok = true → res.sess.cmdCtr = 0 ∧ res.sess.authenticated = true) := by
  unfold authenticateEv2First
  split
  · simp
  · split <;> simp

/-- CBC decryption of a whole number of blocks encrypted under the same key and IV -/
theorem aesCbcCrypt_decrypt_cbcEncrypt (key iv : Block) (k : Nat) (l : List Byte)
    (hl : l.length = 16 * k) :
    aes.aesCbcCrypt false key iv (aes.cbcEncrypt key k iv l) = some l := by
  rw [aesCbcCrypt_decrypt _ _ _ _ (by simp), length_cbcEncrypt,
    Nat.mul_div_cancel_left _ (by omega), cbcDecrypt_cbcEncrypt _ _ _ _ _ hl]

theorem ev2FirstPart1_honest (key rndA rndB : Block) :
    aes.ev2FirstPart1 key rndA (some (aes.cbcEncrypt key 1 0 rndB.toList ++ [0x91, 0xAF])) =
      some (rndB, aes.cbcEncrypt key 2 0 (rndA.toList ++ rotateLeft1 rndB.toList)) := by
  have hAB : (rndA.toList ++ rotateLeft1 rndB.toList).length = 16 * 2 := by simp
  have ht := transmit_some maxApdu (aes.cbcEncrypt key 1 0 rndB.toList) 0x91 0xAF
    (by simp [maxApdu])
  have hd := aes.aesCbcCrypt_decrypt_cbcEncrypt key 0 1 rndB.toList (by simp)
  have he := aes.aesCbcCrypt_encrypt key 0 _ (by rw [hAB])
  simp only [ev2FirstPart1, ht, show swOf 0x91 0xAF = 0x91AF from rfl]
  simp [hd, he, hAB]

theorem ev2FirstPart2_honest (key rndA : Block) (ti : Bytes 4) (x : Bytes 12) :
    aes.ev2FirstPart2 key rndA
      (some (aes.cbcEncrypt key 2 0 (ti.toList ++ rotateLeft1 rndA.toList ++ x.toList) ++
        [0x91, 0x00])) = some ti := by
  have hplain : (ti.toList ++ rotateLeft1 rndA.toList ++ x.toList).length = 16 * 2 := by simp
  have hrot : ((ti.toList ++ rotateLeft1 rndA.toList ++ x.toList).drop 4).take 16 =
      rotateLeft1 rndA.toList := by
    rw [List.append_assoc, List.drop_left' (by simp), List.take_left' (by simp)]
  have ht := transmit_some maxApdu (aes.cbcEncrypt key 2 0
    (ti.toList ++ rotateLeft1 rndA.toList ++ x.toList)) 0x91 0x00 (by simp [maxApdu])
  have hd := aes.aesCbcCrypt_decrypt_cbcEncrypt key 0 2 _ hplain
  simp only [ev2FirstPart2, ht, show swOf 0x91 0x00 = 0x9100 from rfl]
  simp only [List.append_assoc] at hd hrot
  simp [hd, hrot]

/-- part 2 fails when the card's `RndA'` does not rotate back to `RndA` -/
theorem ev2FirstPart2_bad (key rndA : Block) (resp2 : Bytes 32)
    (hbad : rotateRight1 (((aes.cbcDecrypt key 2 0 resp2.toList).drop 4).take 16) ≠ rndA.toList) :
    aes.ev2FirstPart2 key rndA (some (resp2.toList ++ [0x91, 0x00])) = none := by
  have ht := transmit_some maxApdu resp2.toList 0x91 0x00 (by simp [maxApdu])
  have hd : aes.aesCbcCrypt false key 0 resp2.toList =
      some (aes.cbcDecrypt key 2 0 resp2.toList) := by
    rw [aesCbcCrypt_decrypt _ _ _ _ (by simp), Bytes.length_toList]
  simp only [ev2FirstPart2, ht, show swOf 0x91 0x00 = 0x9100 from rfl]
  simp [hd, hbad, failure]

theorem authenticateEv2First_spec (key : Block) (keyNo : Byte) (rndA rndB : Block) (ti : Bytes 4)
    (x : Bytes 12) (sess : Session) :
    let r1 := some (aes.cbcEncrypt key 1 0 rndB.toList ++ [0x91, 0xAF])
    let r2 := some (aes.cbcEncrypt key 2 0 (ti.toList ++ rotateLeft1 rndA.toList ++ x.toList) ++
      [0x91, 0x00])
    let sv := rndA.toList.take 2 ++
      List.zipWith (· ^^^ ·) ((rndA.toList.drop 2).take 6) (rndB.toList.take 6) ++
      (rndB.toList.drop 6).take 10 ++ (rndA.toList.drop 8).take 8
    let res := aes.authenticateEv2First key keyNo rndA r1 r2 sess
    (∃ e, res.sent = [[0x90, 0x71, 0x00, 0x00, 0x02, keyNo, 0x00, 0x00],
        [0x90, 0xAF, 0x00, 0x00, 0x20] ++ e ++ [0x00]] ∧
      aes.cbcDecrypt key 2 0 e = rndA.toList ++ rotateLeft1 rndB.toList ∧
      rotateRight1 (rotateLeft1 rndB.toList) = rndB.toList) ∧
    res.ok = true ∧
    res.sess = { kenc := aes.aesCmac key ([0xA5, 0x5A, 0x00, 0x01, 0x00, 0x80] ++ sv)
                 kmac := aes.aesCmac key ([0x5A, 0xA5, 0x00, 0x01, 0x00, 0x80] ++ sv)
                 ti := ti
                 cmdCtr := 0
                 keyNo := keyNo
                 authenticated := true } ∧
    ∀ (r1' : Option (List Byte)) (resp2 : Bytes 32),
      rotateRight1 (((aes.cbcDecrypt key 2 0 resp2.toList).drop 4).take 16) ≠ rndA.toList →
      (aes.authenticateEv2First key keyNo rndA r1' (some (resp2.toList ++ [0x91, 0x00])) sess).ok =
        false ∧
      (aes.authenticateEv2First key keyNo rndA r1' (some (resp2.toList ++ [0x91, 0x00])) sess).sess =
        sess := by
  intro r1 r2 sv res
  have hres : res = ⟨true, { kenc := aes.aesCmac key (svPrefix1 ++ svTail rndA rndB)
                             kmac := aes.aesCmac key (svPrefix2 ++ svTail rndA rndB)
                             ti := ti
                             cmdCtr := 0
                             keyNo := keyNo
                             authenticated := true },
      [ev2FirstApdu1 keyNo, ev2FirstApdu2 (aes.cbcEncrypt key 2 0
        (rndA.toList ++ rotateLeft1 rndB.toList))]⟩ := by
    simp only [res, authenticateEv2First, r1, r2, ev2FirstPart1_honest,
      ev2FirstPart2_honest]
  refine ⟨⟨_, by rw [hres]; rfl, cbcDecrypt_cbcEncrypt _ _ _ _ _ (by simp),
    rotateRight1_rotateLeft1 _⟩, by rw [hres], by rw [hres]; rfl, fun r1' resp2 hbad => ?_⟩
  have hfail : (aes.authenticateEv2First key keyNo rndA r1'
      (some (resp2.toList ++ [0x91, 0x00])) sess).ok = false := by
    unfold authenticateEv2First
    split
    · rfl
    · rw [ev2FirstPart2_bad _ _ _ _ hbad]
  exact ⟨hfail, (aes.authenticateEv2First_sess key keyNo rndA r1' _ sess).1 hfail⟩

end BlockCipher

end Ntag424

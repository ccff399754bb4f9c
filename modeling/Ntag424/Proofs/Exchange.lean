import Ntag424.Spec.Exchange
import Ntag424.Proofs.Commands

/-! Reasoning about programs on the card link. A run of `x >>= f` is a run of `x` followed by
a run of `f` on its value, so facts about whole programs come from facts about their
routines: what every APDU a program can send satisfies (`AllSent`), and what a card state
kept by every such APDU is after any run.

Each routine `main` calls is characterised once by the APDUs it can send: each is a short
APDU, whose `Lc` byte is the length of its data, and its `INS` is one the routine names. -/

namespace Ntag424

/-- an ISO 7816 short command APDU: `CLA INS P1 P2`, then `Le` alone, or `Lc`, `Lc ≥ 1` data
bytes and possibly `Le` -/
def ShortApdu (a : List Byte) : Prop :=
  a.length = 5 ∨ (0 < (a.getD 4 0).toNat ∧
    (a.length = 5 + (a.getD 4 0).toNat ∨ a.length = 6 + (a.getD 4 0).toNat))

instance (a : List Byte) : Decidable (ShortApdu a) :=
  inferInstanceAs (Decidable (a.length = 5 ∨ (0 < (a.getD 4 0).toNat ∧
    (a.length = 5 + (a.getD 4 0).toNat ∨ a.length = 6 + (a.getD 4 0).toNat))))

/-- a short APDU whose `INS` is one of `ins` -/
def ApduOf (ins : List Byte) (a : List Byte) : Prop := ShortApdu a ∧ a.getD 1 0 ∈ ins

instance (ins a : List Byte) : Decidable (ApduOf ins a) :=
  inferInstanceAs (Decidable (ShortApdu a ∧ a.getD 1 0 ∈ ins))

theorem ApduOf.mono {ins ins' a : List Byte} (h : ins ⊆ ins') (ha : ApduOf ins a) :
    ApduOf ins' a :=
  ⟨ha.1, h ha.2⟩

theorem apduOf_case4 (cla ins p1 p2 le : Byte) (d : List Byte) (h1 : 1 ≤ d.length)
    (h255 : d.length ≤ 255) :
    ApduOf [ins] ([cla, ins, p1, p2, BitVec.ofNat 8 d.length] ++ d ++ [le]) := by
  have hlc : (BitVec.ofNat 8 d.length).toNat = d.length := by
    rw [BitVec.toNat_ofNat]; exact Nat.mod_eq_of_lt (by omega)
  refine ⟨Or.inr ⟨?_, Or.inr ?_⟩, by simp⟩ <;> simp [hlc] <;> omega

theorem apduOf_case3 (cla ins p1 p2 : Byte) (d : List Byte) (h1 : 1 ≤ d.length)
    (h255 : d.length ≤ 255) :
    ApduOf [ins] ([cla, ins, p1, p2, BitVec.ofNat 8 d.length] ++ d) := by
  have hlc : (BitVec.ofNat 8 d.length).toNat = d.length := by
    rw [BitVec.toNat_ofNat]; exact Nat.mod_eq_of_lt (by omega)
  refine ⟨Or.inr ⟨?_, Or.inl ?_⟩, by simp⟩ <;> simp [hlc] <;> omega

namespace Exchange

variable {α β κ : Type} (card : κ → List Byte → κ × Option (List Byte))

@[simp] theorem pure_eq (a : α) : (pure a : Exchange α) = done a := rfl

@[simp] theorem done_bind (a : α) (f : α → Exchange β) : (done a >>= f) = f a := rfl

@[simp] theorem send_bind (apdu : List Byte) (k : Option (List Byte) → Exchange α)
    (f : α → Exchange β) : (send apdu k >>= f) = send apdu fun r => k r >>= f := rfl

@[simp] theorem run_done (c : κ) (a : α) : (done a).run card c = (c, a) := rfl

@[simp] theorem run_send (c : κ) (apdu : List Byte) (k : Option (List Byte) → Exchange α) :
    (send apdu k).run card c = (k (card c apdu).2).run card (card c apdu).1 := rfl

theorem run_bind (x : Exchange α) (f : α → Exchange β) (c : κ) :
    (x >>= f).run card c = (f (x.run card c).2).run card (x.run card c).1 := by
  induction x generalizing c with
  | done a => rfl
  | send apdu k ih => exact ih _ _

theorem run_bind_pure (x : Exchange α) (g : α → β) (c : κ) :
    (x >>= fun a => pure (g a)).run card c = ((x.run card c).1, g (x.run card c).2) :=
  run_bind card x _ c

theorem AllSent.mono {P Q : List Byte → Prop} (h : ∀ a, P a → Q a) :
    ∀ {x : Exchange α}, x.AllSent P → x.AllSent Q
  | done _, _ => trivial
  | send _ _, ⟨ha, hk⟩ => ⟨h _ ha, fun r => AllSent.mono h (hk r)⟩

theorem AllSent.widen {x : Exchange α} {ins ins' : List Byte} (h : x.AllSent (ApduOf ins))
    (hsub : ins ⊆ ins') : x.AllSent (ApduOf ins') :=
  h.mono fun _ ha => ha.mono hsub

theorem allSent_bind {P : List Byte → Prop} {x : Exchange α} {f : α → Exchange β}
    (hx : x.AllSent P) (hf : ∀ a, (f a).AllSent P) : (x >>= f).AllSent P := by
  induction x with
  | done a => exact hf a
  | send apdu k ih => exact ⟨hx.1, fun r => ih r (hx.2 r)⟩

/-- a card invariant kept by every APDU a program may send holds after any run of it -/
theorem run_invariant {P : List Byte → Prop} (Q : κ → Prop)
    (hstep : ∀ c a, P a → Q c → Q (card c a).1) :
    ∀ (x : Exchange α) (c : κ), x.AllSent P → Q c → Q (x.run card c).1
  | done _, _, _, hc => hc
  | send apdu k, c, ⟨ha, hk⟩, hc =>
    run_invariant Q hstep (k (card c apdu).2) _ (hk _) (hstep c apdu ha hc)

end Exchange

open Exchange

theorem allSent_oneApdu {γ : Type} {P : List Byte → Prop} {apdu : Option (List Byte)}
    (f : Option (List Byte) → γ) (h : ∀ a, apdu = some a → P a) :
    (oneApdu apdu f).AllSent P := by
  cases apdu with
  | none => trivial
  | some a => exact ⟨h a rfl, fun _ => trivial⟩

theorem run_oneApdu {γ κ : Type} (card : κ → List Byte → κ × Option (List Byte)) (c : κ)
    (a : List Byte) (f : Option (List Byte) → γ) :
    (oneApdu (some a) f).run card c = ((card c a).1, f (card c a).2) := rfl

/-! ### The routines on given answers

The card that answers the `k`-th APDU with `replies k` gives back the models on given answers:
the programs send what those models record and compute what they compute. -/

theorem writeChunksEx_replyCard (replies : Nat → Option (List Byte)) (data : List Byte)
    (offset : Nat) (sw : BitVec 16) (k : Nat) :
    ((writeChunksEx data offset sw).run (replyCard replies) k).2 =
      writeChunks data replies offset sw k := by
  induction offset, sw using writeChunksEx.induct data generalizing k with
  | case1 offset sw hlt chunk ih =>
    rw [writeChunksEx, if_pos hlt, writeChunks, dif_pos hlt]
    simp only [run_send, replyCard]
    split
    · rfl
    · rw [run_bind_pure, ih (replies k) (k + 1)]
  | case2 offset sw hge =>
    rw [writeChunksEx, if_neg hge, writeChunks, dif_neg hge]; rfl

/-- `write_ndef_file_plain` as a program is `write_ndef_file_plain` on given answers -/
theorem writeNdefFilePlainEx_replyCard (replies : Nat → Option (List Byte)) (data : List Byte) :
    ((writeNdefFilePlainEx data).run (replyCard replies) 0).2 =
      writeNdefFilePlain data replies := by
  have happ : selectNdefAppEx.run (replyCard replies) 0 = (1, selectNdefApp (replies 0)) := rfl
  have hfile : (selectFileEx 0xE104).run (replyCard replies) 1 =
      (2, selectFile 0xE104 (replies 1)) := rfl
  simp only [writeNdefFilePlainEx, writeNdefFilePlain, run_bind, happ]
  split
  · rfl
  · simp only [run_bind, hfile]
    split
    · rfl
    · rw [run_bind_pure, writeChunksEx_replyCard]

theorem authenticateEv2FirstEx_replyCard (aes : BlockCipher) (replies : Nat → Option (List Byte))
    (key : Block) (keyNo : Byte) (rndA : Block) (sess : Session) (k : Nat) :
    ((aes.authenticateEv2FirstEx key keyNo rndA sess).run (replyCard replies) k).2 =
      aes.authenticateEv2First key keyNo rndA (replies k) (replies (k + 1)) sess := by
  simp only [BlockCipher.authenticateEv2FirstEx, send_bind, run_send, replyCard, done_bind]
  split
  · next h => simp only [pure_eq, run_done, BlockCipher.authenticateEv2First, h]
  · simp only [send_bind, run_send, done_bind, pure_eq, run_done, replyCard]

/-! ### What each routine sends -/

theorem selectNdefAppEx_sends : selectNdefAppEx.AllSent (ApduOf [0xA4]) :=
  allSent_oneApdu _ fun _ h => by cases h; decide

theorem selectFileEx_sends (fileId : BitVec 16) : (selectFileEx fileId).AllSent (ApduOf [0xA4]) :=
  allSent_oneApdu _ fun _ h => by cases h; simp [ApduOf, ShortApdu]

theorem getFileSettingsPlainEx_sends (fileNo : Byte) (outCap : Nat) :
    (getFileSettingsPlainEx fileNo outCap).AllSent (ApduOf [0xF5]) :=
  allSent_oneApdu _ fun _ h => by cases h; simp [getFileSettingsPlainApdu, ApduOf, ShortApdu]

theorem getSdmReadCounterEx_sends (fileNo : Byte) :
    (getSdmReadCounterEx fileNo).AllSent (ApduOf [0xF6]) :=
  allSent_oneApdu _ fun _ h => by cases h; simp [getSdmReadCounterApdu, ApduOf, ShortApdu]

theorem writeChunksEx_sends (data : List Byte) (offset : Nat) (sw : BitVec 16) :
    (writeChunksEx data offset sw).AllSent (ApduOf [0xD6]) := by
  induction offset, sw using writeChunksEx.induct data with
  | case1 offset sw hlt chunk ih =>
    rw [writeChunksEx, if_pos hlt]
    refine ⟨?_, fun r => ?_⟩
    · have hlen : ((data.drop offset).take chunk).length = chunk := by
        simp only [List.length_take, List.length_drop, chunk]; omega
      simpa [updateBinaryApdu, hlen] using
        apduOf_case3 0x00 0xD6 (BitVec.ofNat 8 ((offset >>> 8) &&& 0xFF))
          (BitVec.ofNat 8 (offset &&& 0xFF)) ((data.drop offset).take chunk)
          (by simp only [hlen, chunk]; omega) (by simp only [hlen, chunk]; omega)
    · dsimp only
      split
      · trivial
      · exact allSent_bind (ih _) fun _ => trivial
  | case2 offset sw hge =>
    rw [writeChunksEx, if_neg hge]; trivial

theorem writeNdefFilePlainEx_sends (data : List Byte) :
    (writeNdefFilePlainEx data).AllSent (ApduOf [0xA4, 0xD6]) := by
  refine allSent_bind (selectNdefAppEx_sends.widen (by simp)) fun app => ?_
  split
  · trivial
  refine allSent_bind ((selectFileEx_sends _).widen (by simp)) fun file => ?_
  split
  · trivial
  exact allSent_bind ((writeChunksEx_sends _ _ _).widen (by simp)) fun _ => trivial

namespace BlockCipher

variable (aes : BlockCipher)

theorem ev2FirstPart1_length {key rndA : Block} {r1 : Option (List Byte)} {rndB : Block}
    {e : List Byte} (h : aes.ev2FirstPart1 key rndA r1 = some (rndB, e)) : e.length = 32 := by
  simp only [ev2FirstPart1, Option.bind_eq_bind, Option.bind_eq_some] at h
  obtain ⟨⟨resp, sw⟩, -, h⟩ := h
  split at h
  · simp [failure] at h
  simp only [pure, Option.bind_eq_bind, Option.bind_eq_some, Option.some.injEq,
    Prod.mk.injEq] at h
  obtain ⟨-, -, d, -, e', he', -, rfl⟩ := h
  rw [aes.aesCbcCrypt_encrypt _ _ _ (by simp)] at he'
  cases he'
  simp

theorem authenticateEv2FirstEx_sends (key : Block) (keyNo : Byte) (rndA : Block)
    (sess : Session) :
    (aes.authenticateEv2FirstEx key keyNo rndA sess).AllSent (ApduOf [0x71, 0xAF]) := by
  refine ⟨?_, fun r1 => ?_⟩
  · exact (apduOf_case4 0x90 0x71 0x00 0x00 0x00 [keyNo, 0x00] (by simp) (by simp)).mono
      (by simp)
  · dsimp only [Exchange.bind]
    split
    · trivial
    · next rndB e he =>
      have hlen := aes.ev2FirstPart1_length he
      refine ⟨?_, fun _ => trivial⟩
      have := apduOf_case4 0x90 0xAF 0x00 0x00 0x00 e (by omega) (by omega)
      rw [hlen] at this
      exact this.mono (by simp)

theorem ssmWrap_eq_some {s : Session} {cmd : Byte} {header data a : List Byte}
    (h : aes.ssmWrap s cmd header data = some a) :
    ∃ enc : List Byte, header.length + enc.length + 8 ≤ 255 ∧
      a = [0x90, cmd, 0x00, 0x00, BitVec.ofNat 8 (header.length + enc.length + 8)] ++ header ++
        enc ++ cmacTruncate8 (aes.aesCmac s.kmac (cmd :: le16 s.cmdCtr ++ s.ti.toList ++ header ++
          enc)) ++ [0x00] := by
  unfold ssmWrap at h
  simp only [failure, pure, Option.bind_eq_bind, Option.bind_eq_some] at h
  split at h
  · split at h
    · simp at h
    simp only [Option.some_bind, Option.bind_eq_some] at h
    obtain ⟨enc, -, h⟩ := h
    split at h
    · simp at h
    · simp only [Option.some_bind, Option.some.injEq] at h
      exact ⟨enc, by omega, h.symm⟩
  · rw [Option.some_bind] at h
    split at h
    · simp at h
    · simp only [Option.some_bind, Option.some.injEq] at h
      exact ⟨[], by omega, h.symm⟩

theorem ssmWrap_sends {s : Session} {cmd : Byte} {header data a : List Byte}
    (h : aes.ssmWrap s cmd header data = some a) : ApduOf [cmd] a := by
  obtain ⟨enc, hlc, rfl⟩ := aes.ssmWrap_eq_some h
  generalize hm : cmacTruncate8 (aes.aesCmac s.kmac
    (cmd :: le16 s.cmdCtr ++ s.ti.toList ++ header ++ enc)) = m at *
  have hd : (header ++ enc ++ m).length = header.length + enc.length + 8 := by
    simp only [List.length_append, ← hm, length_cmacTruncate8]
  have := apduOf_case4 0x90 cmd 0x00 0x00 0x00 (header ++ enc ++ m) (by omega) (by omega)
  rw [hd] at this
  simpa only [List.append_assoc] using this

theorem ssmCmdFull_apdu_wrap {s : Session} {cmd : Byte} {header data : List Byte}
    {outCap : Nat} {reply : Option (List Byte)} {a : List Byte}
    (h : (aes.ssmCmdFull s cmd header data outCap reply).apdu = some a) :
    aes.ssmWrap s cmd header data = some a := by
  unfold ssmCmdFull at h
  split at h
  · cases h
  split at h
  · cases h
  · next apdu hw =>
    have : apdu = a := by split at h <;> (try split at h) <;> simp_all
    exact this ▸ hw

theorem ssmCmdFull_sends' {s : Session} {cmd : Byte} {header data : List Byte} {outCap : Nat}
    {reply : Option (List Byte)} {a : List Byte}
    (h : (aes.ssmCmdFull s cmd header data outCap reply).apdu = some a) : ApduOf [cmd] a :=
  aes.ssmWrap_sends (aes.ssmCmdFull_apdu_wrap h)

theorem ssmWrap_getD_five {s : Session} {cmd k : Byte} {hs data a : List Byte}
    (h : aes.ssmWrap s cmd (k :: hs) data = some a) : a.getD 5 0 = k := by
  obtain ⟨enc, -, rfl⟩ := aes.ssmWrap_eq_some h
  rfl

theorem changeKeyEx_sends (s : Session) (keyNo : Byte) (oldKey newKey : Block) (keyVer : Byte) :
    (aes.changeKeyEx s keyNo oldKey newKey keyVer).AllSent (ApduOf [0xC4]) :=
  allSent_oneApdu _ fun _ h => aes.ssmCmdFull_sends' h

theorem changeKeyEx_keyNo (s : Session) (keyNo : Byte) (oldKey newKey : Block) (keyVer : Byte) :
    (aes.changeKeyEx s keyNo oldKey newKey keyVer).AllSent fun a => a.getD 5 0 = keyNo :=
  allSent_oneApdu _ fun _ h => aes.ssmWrap_getD_five (aes.ssmCmdFull_apdu_wrap h)

theorem changeFileSettingsSdmEx_sends (s : Session) (fileNo commMode ar1 ar2 sdmOptions sdmMeta
    sdmFile sdmCtr : Byte) (uidOffset sdmReadCtrOffset sdmMacInputOffset sdmMacOffset : BitVec 32) :
    (aes.changeFileSettingsSdmEx s fileNo commMode ar1 ar2 sdmOptions sdmMeta sdmFile sdmCtr
      uidOffset sdmReadCtrOffset sdmMacInputOffset sdmMacOffset).AllSent (ApduOf [0x5F]) :=
  allSent_oneApdu _ fun _ h => aes.ssmCmdFull_sends' h

theorem getFileSettingsSecureEx_sends (s : Session) (fileNo : Byte) (outCap : Nat) :
    (aes.getFileSettingsSecureEx s fileNo outCap).AllSent (ApduOf [0xF5]) :=
  allSent_oneApdu _ fun _ h => aes.ssmCmdFull_sends' h

theorem secureReadCounterEx_sends (s : Session) (fileNo : Byte) :
    (aes.secureReadCounterEx s fileNo).AllSent (ApduOf [0xF6]) :=
  allSent_oneApdu _ fun _ h => aes.ssmCmdFull_sends' h

end BlockCipher

end Ntag424

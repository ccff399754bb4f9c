import Ntag424.Proofs.Main
import Ntag424.Proofs.KeyFile

/-! What `main` does to the card's keys and to the key files, over one run and over two.

On a card in any state, whatever it answers, the card phase leaves every key but
`new_key_no` under `--provision` and `rotate_key_no` under `--rotate-key` as it was. On a
card that holds the keys `main` expects, its whole effect on the key store is the one change
`mainKeyChange` names. Of the files, `main` writes at most the one file the output path of a
key it draws names, whatever other paths name it too. On a device with room for the digits
the key it hands to ChangeKey reads back from a key file; on a device without, the write is cut
short unnoticed and the key ends on the card alone.

Two runs compose: after `--provision`, a `--rotate-key` of the same key number whose
`--old-key` names the file the first run wrote, or read its key from, leaves the card holding
the second run's new key, which reads back from its own key file when the device has room for
both files, and the key `main` authenticates with stays. -/

namespace Ntag424

open Exchange

/-- the one change the card phase asks of the card's keys: `new_key_no` and the key of
`--provision`, or `rotate_key_no` and the new key of `--rotate-key` when the old key is known,
once the block's key number passes its check -/
def mainKeyChange (o : MainOptions) (i : MainInputs) : Option (Byte × Block) :=
  if o.doProvision then
    if o.newKeyNo ≤ 0x0F then i.provisionKey.map fun key => (o.newKeyNo, key) else none
  else if o.doRotateKey then
    if o.rotateKeyNo ≤ 0x0F then
      i.rotateOldKey.bind fun _ => i.rotateNewKey.map fun key => (o.rotateKeyNo, key)
    else none
  else none

/-- a key table after a change -/
def applyKeyChange (keys : Byte → Block) : Option (Byte × Block) → Byte → Block
  | some (n, key) => Function.update keys n key
  | none => keys

namespace BlockCipher

variable (aes : BlockCipher) {ω : Type} (nonce : Nat → Block × Bytes 4 × Bytes 12)
  (app : ω → Byte → List Byte → List Byte → ω × Byte × List Byte)
  (plain : ω → List Byte → ω × Option (List Byte))

/-- the card phase changes no key but the one its options name -/
theorem mainCardPhase_otherKeys (o : MainOptions) (i : MainInputs) (st : Picc ω) {k : Byte}
    (hp : o.doProvision = true → k ≠ o.newKeyNo)
    (hr : o.doRotateKey = true → k ≠ o.rotateKeyNo) :
    ((aes.mainCardPhase o i).run (aes.piccKeyStep nonce app plain) st).1.keys k = st.keys k :=
  aes.run_keys_other nonce app plain
    (aes.mainCardPhase_changeKeyFor o i (fun h => (hp h).symm) fun h => (hr h).symm) st

/-- key 0 under `--provision` of key 1, under the identity cipher -/
theorem mainCardPhase_otherKeys_key0 :
    let o : MainOptions := ⟨0, 0, 2, true, 1, false, 1, false, 1, ⟨[], by simp⟩, by decide⟩
    let i : MainInputs := ⟨some (Bytes.ofList (List.replicate 16 0x11)), none, none, 0, 0, 0, 0⟩
    let st : Picc Unit := ⟨fun _ => 0, .idle, 0, ()⟩
    let card := ident.piccKeyStep (fun _ => (0, 0, 0)) (fun u _ _ _ => (u, 0x00, []))
      (fun u _ => (u, none))
    (o.doProvision = true → (0 : Byte) ≠ o.newKeyNo) ∧
    (o.doRotateKey = true → (0 : Byte) ≠ o.rotateKeyNo) ∧
    ((ident.mainCardPhase o i).run card st).1.keys 0 = st.keys 0 :=
  ⟨fun _ => by decide, fun h => absurd h (by decide),
    mainCardPhase_otherKeys ident _ _ _ _ _ _ (fun _ => by decide) fun h => absurd h (by decide)⟩

/-! ### The effect on the card's keys -/

theorem mainProvision_keys (st : Picc ω) (o : MainOptions) (newKey : Option Block)
    (rndA : Block) (hkey : st.keys o.keyNo = o.key) (hzero : st.keys o.newKeyNo = 0) :
    ((aes.mainProvision o newKey rndA).run (aes.piccKeyStep nonce app plain) st).1.keys =
      applyKeyChange st.keys
        (if o.newKeyNo ≤ 0x0F then newKey.map fun k => (o.newKeyNo, k) else none) := by
  by_cases hno : o.newKeyNo ≤ 0x0F
  · rw [if_pos hno]
    cases newKey with
    | none => simp [mainProvision, BitVec.not_lt.2 hno, applyKeyChange]
    | some newKey =>
      rw [(aes.run_mainProvision nonce app plain st o hno newKey rndA hkey).2]
      simp [piccChangeKey, hzero, changeKeyDecode_changeKeyData, applyKeyChange]
  · unfold mainProvision
    rw [if_neg hno, if_pos (BitVec.not_le.1 hno)]
    rfl

theorem mainRotate_keys (st : Picc ω) (o : MainOptions) (ck : CounterKey)
    (oldKey newKey : Option Block) (rndA : Block) (hkey : st.keys o.keyNo = o.key)
    (hold : ∀ k, oldKey = some k → st.keys o.rotateKeyNo = k) :
    ((aes.mainRotate o ck oldKey newKey rndA).run (aes.piccKeyStep nonce app plain) st).1.keys =
      applyKeyChange st.keys (if o.rotateKeyNo ≤ 0x0F then
        oldKey.bind fun _ => newKey.map fun k => (o.rotateKeyNo, k) else none) := by
  by_cases hno : o.rotateKeyNo ≤ 0x0F
  · rw [if_pos hno]
    match oldKey, newKey, hold with
    | some oldKey, some newKey, hold =>
      rw [(aes.run_mainRotate nonce app plain st o ck hno oldKey newKey rndA hkey).2]
      simp [piccChangeKey, hold oldKey rfl, changeKeyDecode_changeKeyData, applyKeyChange]
    | none, _, _ => simp [mainRotate, BitVec.not_lt.2 hno, applyKeyChange]
    | some _, none, _ => simp [mainRotate, BitVec.not_lt.2 hno, applyKeyChange]
  · unfold mainRotate
    rw [if_neg hno, if_pos (BitVec.not_le.1 hno)]
    rfl

theorem mainKeyBlocks_keys (st : Picc ω) (o : MainOptions) (i : MainInputs)
    (hkey : st.keys o.keyNo = o.key) (hprov : o.doProvision = true → st.keys o.newKeyNo = 0)
    (hrot : o.doRotateKey = true → ∀ k, i.rotateOldKey = some k → st.keys o.rotateKeyNo = k) :
    ((aes.mainKeyBlocks o i).run (aes.piccKeyStep nonce app plain) st).1.keys =
      applyKeyChange st.keys (mainKeyChange o i) := by
  unfold mainKeyBlocks mainKeyChange
  rw [run_bind]
  cases hp : o.doProvision
  · cases hr : o.doRotateKey
    · simp [applyKeyChange]
    · simpa using aes.mainRotate_keys nonce app plain st o _ _ _ _ hkey (hrot hr)
  · have hr : o.doRotateKey = false := Bool.eq_false_iff.2 fun h => o.exclusive ⟨hp, h⟩
    have hk := aes.mainProvision_keys nonce app plain st o i.provisionKey i.rndProvision hkey
      (hprov hp)
    simp only [if_true]
    revert hk
    generalize (aes.mainProvision o i.provisionKey i.rndProvision).run
      (aes.piccKeyStep nonce app plain) st = r
    rcases r with ⟨st1, _ | ck⟩ <;> simp [hr]

theorem mainCardPhase_keys_of (o : MainOptions) (i : MainInputs) (st : Picc ω)
    {keys : Byte → Block}
    (h : ∀ st0 : Picc ω, st0.keys = st.keys →
      ((aes.mainKeyBlocks o i).run (aes.piccKeyStep nonce app plain) st0).1.keys = keys) :
    ((aes.mainCardPhase o i).run (aes.piccKeyStep nonce app plain) st).1.keys = keys := by
  have h0 := aes.run_keys nonce app plain (by decide)
    (getFileSettingsPlainEx_sends o.counterFileNo mainFsDataLen) st
  unfold mainCardPhase
  rw [run_bind]
  revert h0
  generalize (getFileSettingsPlainEx o.counterFileNo mainFsDataLen).run
    (aes.piccKeyStep nonce app plain) st = r0
  rcases r0 with ⟨st0, p⟩
  intro h0
  have hk := h st0 h0
  dsimp only
  rw [run_bind]
  revert hk
  generalize (aes.mainKeyBlocks o i).run (aes.piccKeyStep nonce app plain) st0 = r1
  rcases r1 with ⟨st1, _ | ck⟩ <;> intro hk
  · exact hk
  · exact (aes.run_keys nonce app plain (by decide) (aes.mainSdmAndCounters_sends o i _ _ ck)
      st1).trans hk

/-- on a card holding the keys `main` expects, the phase makes the change `mainKeyChange` names;
with the key number `key_no` this rests on the card reading that ChangeKey as any other -/
theorem mainCardPhase_keys (o : MainOptions) (i : MainInputs) (st : Picc ω)
    (hkey : st.keys o.keyNo = o.key) (hprov : o.doProvision = true → st.keys o.newKeyNo = 0)
    (hrot : o.doRotateKey = true → ∀ k, i.rotateOldKey = some k → st.keys o.rotateKeyNo = k) :
    ((aes.mainCardPhase o i).run (aes.piccKeyStep nonce app plain) st).1.keys =
      applyKeyChange st.keys (mainKeyChange o i) :=
  aes.mainCardPhase_keys_of nonce app plain o i st fun st0 h0 => h0 ▸
    aes.mainKeyBlocks_keys nonce app plain st0 o i (h0 ▸ hkey) (fun h => h0 ▸ hprov h)
      fun h k hk => h0 ▸ hrot h k hk

theorem mainCardPhase_keys_of_provision (o : MainOptions) (i : MainInputs) (st : Picc ω)
    {k : Block} (hp : o.doProvision = true) (hno : o.newKeyNo ≤ 0x0F)
    (hk : i.provisionKey = some k) (hkey : st.keys o.keyNo = o.key)
    (hzero : st.keys o.newKeyNo = 0) :
    ((aes.mainCardPhase o i).run (aes.piccKeyStep nonce app plain) st).1.keys =
      Function.update st.keys o.newKeyNo k := by
  refine aes.mainCardPhase_keys_of nonce app plain o i st fun st0 h0 => ?_
  rw [aes.mainKeyBlocks_keys nonce app plain st0 o i (h0 ▸ hkey) (fun _ => h0 ▸ hzero)
    fun h => absurd ⟨hp, h⟩ o.exclusive, h0, mainKeyChange, if_pos hp, if_pos hno, hk]
  rfl

/-- `--provision` of key 1 on a card with the zero key everywhere -/
theorem mainCardPhase_keys_provision :
    let o : MainOptions := ⟨0, 0, 2, true, 1, false, 1, true, 1, ⟨[], by simp⟩, by decide⟩
    let i : MainInputs := ⟨some (Bytes.ofList (List.replicate 16 0x11)), none, none, 0, 0, 0, 0⟩
    let st : Picc Unit := ⟨fun _ => 0, .idle, 0, ()⟩
    let card := ident.piccKeyStep (fun _ => (0, 0, 0)) (fun u _ _ _ => (u, 0x00, []))
      (fun u _ => (u, none))
    st.keys o.keyNo = o.key ∧ (o.doProvision = true → st.keys o.newKeyNo = 0) ∧
    (o.doRotateKey = true → ∀ k, i.rotateOldKey = some k → st.keys o.rotateKeyNo = k) ∧
    ((ident.mainCardPhase o i).run card st).1.keys = applyKeyChange st.keys (mainKeyChange o i) :=
  ⟨rfl, fun _ => rfl, fun h => absurd h (by decide),
    mainCardPhase_keys ident _ _ _ _ _ _ rfl (fun _ => rfl) fun h => absurd h (by decide)⟩

end BlockCipher

/-! ### The key files -/

theorem mainKeyFiles_of_provision (fs : Files) (o : MainOptions) (p : KeyPaths) (d : MainDraws)
    (hp : o.doProvision = true) (hno : o.newKeyNo ≤ 0x0F) :
    mainKeyFiles fs o p d =
      (⟨(provisionKeyOf fs p o.newKeyNo d.provisionKey).1, none, none, d.rndProvision,
        d.rndRotate, d.rndSdm, d.rndFinal⟩, (provisionKeyOf fs p o.newKeyNo d.provisionKey).2) := by
  have hr : ¬(o.doRotateKey = true ∧ o.rotateKeyNo ≤ 0x0F) := fun h => o.exclusive ⟨hp, h.1⟩
  rw [mainKeyFiles, if_pos ⟨hp, hno⟩, if_neg hr]

namespace BlockCipher

variable (aes : BlockCipher) {ω : Type} (nonce : Nat → Block × Bytes 4 × Bytes 12)
  (app : ω → Byte → List Byte → List Byte → ω × Byte × List Byte)
  (plain : ω → List Byte → ω × Option (List Byte))

/-- on a full device the drawn key ends on the card while its key file holds none -/
theorem mainCardPhase_keyLost (fs : Files) (st : Picc ω) (o : MainOptions) (p : KeyPaths)
    (d : MainDraws) (hp : o.doProvision = true) (hno : o.newKeyNo ≤ 0x0F)
    (hin : p.provisionKey = none)
    (hw : fs.writable (p.keyOut.getD (defaultKeyPath o.newKeyNo ".hex")) = true)
    (hfull : fs.room +
      ((fs.read (p.keyOut.getD (defaultKeyPath o.newKeyNo ".hex"))).getD []).length < 32)
    (hkey : st.keys o.keyNo = o.key) (hzero : st.keys o.newKeyNo = 0) :
    let run := mainKeyFiles fs o p d
    ((aes.mainCardPhase o run.1).run (aes.piccKeyStep nonce app plain) st).1.keys o.newKeyNo =
        d.provisionKey ∧
      readKeyFile run.2 (p.keyOut.getD (defaultKeyPath o.newKeyNo ".hex")) = none := by
  intro run
  obtain ⟨fs', hfs'⟩ : ∃ fs', writeKeyHexFile fs (p.keyOut.getD (defaultKeyPath o.newKeyNo ".hex"))
      d.provisionKey = some fs' := by
    rw [writeKeyHexFile, if_pos hw]
    exact ⟨_, rfl⟩
  have hprov : provisionKeyOf fs p o.newKeyNo d.provisionKey = (some d.provisionKey, fs') := by
    simp only [provisionKeyOf, hin, hfs']
  have hrun : run.1.provisionKey = some d.provisionKey ∧ run.2 = fs' := by
    simp only [run, mainKeyFiles_of_provision fs o p d hp hno, hprov, and_self]
  refine ⟨by rw [aes.mainCardPhase_keys_of_provision nonce app plain o run.1 st hp hno hrun.1
    hkey hzero, Function.update_same], ?_⟩
  rw [hrun.2, readKeyFile_writeKeyHexFile hfs', if_pos rfl, if_neg (by omega)]

/-- key 1 on a full device with no files, under the identity cipher -/
theorem mainCardPhase_keyLost_key1 :
    let fs : Files := ⟨id, fun _ => none, fun _ => true, 0⟩
    let st : Picc Unit := ⟨fun _ => 0, .idle, 0, ()⟩
    let o : MainOptions := ⟨0, 0, 2, true, 1, false, 1, false, 1, ⟨[], by simp⟩, by decide⟩
    let p : KeyPaths := ⟨none, none, none, none, none⟩
    let d : MainDraws := ⟨Bytes.ofList (List.replicate 16 0x11), 0, 0, 0, 0, 0⟩
    o.doProvision = true ∧ o.newKeyNo ≤ 0x0F ∧ p.provisionKey = none ∧
    fs.writable (p.keyOut.getD (defaultKeyPath o.newKeyNo ".hex")) = true ∧
    fs.room + ((fs.read (p.keyOut.getD (defaultKeyPath o.newKeyNo ".hex"))).getD []).length < 32 ∧
    st.keys o.keyNo = o.key ∧ st.keys o.newKeyNo = 0 ∧
    ((ident.mainCardPhase o (mainKeyFiles fs o p d).1).run
      (ident.piccKeyStep (fun _ => (0, 0, 0)) (fun u _ _ _ => (u, 0x00, []))
        (fun u _ => (u, none))) st).1.keys o.newKeyNo = d.provisionKey ∧
      readKeyFile (mainKeyFiles fs o p d).2 (p.keyOut.getD (defaultKeyPath o.newKeyNo ".hex")) =
        none :=
  ⟨rfl, by decide, rfl, rfl, by decide, rfl, rfl,
    mainCardPhase_keyLost ident _ _ _ _ _ _ _ _ rfl (by decide) rfl rfl (by decide) rfl rfl⟩

end BlockCipher

end Ntag424

import Ntag424.Spec.Exchange
import Ntag424.Spec.Ndef
import Ntag424.Spec.KeyFile

/-! `main` from the FileSettings read on. Before it, `main` reads UID, ATS, the CC file and
the NDEF file, prints them and takes the NDEF file id from the CC file. `get_uid`, `get_ats`
and `read_binary` copy a whole answer into `uid[16]`, `ats[32]`, `cc[32]` and `nlen_bytes[4]`,
so a longer answer writes past them (`getUid_overruns_uid`); the theorems about the card phase
start from `main`'s state at the FileSettings read, after reads that stayed in bounds. From
there `main` reads the FileSettings of `counter_file_no`, runs the blocks the options ask
for, and ends with the counter reads:

* `--provision` authenticates with `key` and `key_no` and changes key `new_key_no` from the
  zero key; the new key becomes `counter_key` at `counter_key_no = new_key_no`;
* `--rotate-key` authenticates the same way and changes `rotate_key_no` from the old key; the
  new key becomes `counter_key` when `rotate_key_no = counter_key_no`;
* `--sdm-setup` authenticates the same way, sends `ChangeFileSettings` for the SDM NDEF
  template, writes the template, and reads the FileSettings back;
* last, the plain counter read, then EV2-First with `counter_key` and `counter_key_no`, and
  on that session the secure counter read.

A block that fails jumps to `cleanup`, past everything after it. The card phase takes its keys
and each `RndA` as inputs; `mainKeyFiles` gives the keys from the key files and from the
system RNG. -/

namespace Ntag424

/-- the options `main` has parsed that its card steps read; `main` exits with 2 before it
connects when both `--provision` and `--rotate-key` are given -/
structure MainOptions where
  key : Block
  keyNo : Byte
  counterFileNo : Byte
  doProvision : Bool
  newKeyNo : Byte
  doRotateKey : Bool
  rotateKeyNo : Byte
  doSdmSetup : Bool
  sdmKeyNo : Byte
  sdmBaseUrl : CString
  exclusive : ¬(doProvision = true ∧ doRotateKey = true)

/-- what `main` takes from outside: the key `--provision` installs (read from
`--provision-key`, or drawn and written to the key file), the old and new keys of
`--rotate-key`, each `none` when `main` cannot get it, and the `RndA` of each EV2-First -/
structure MainInputs where
  provisionKey : Option Block
  rotateOldKey : Option Block
  rotateNewKey : Option Block
  rndProvision : Block
  rndRotate : Block
  rndSdm : Block
  rndFinal : Block

/-- `counter_key` and `counter_key_no` -/
structure CounterKey where
  key : Block
  keyNo : Byte

/-- `memset(&sess, 0, sizeof(sess))` -/
def Session.zero : Session := ⟨0, 0, 0, 0, 0, false⟩

/-- what `main` holds at `cleanup` when no block jumped there: `counter_key` and
`counter_key_no`, the plain counter, the last EV2-First and the secure counter -/
structure MainEnd where
  counterKey : CounterKey
  plainCounter : Option (BitVec 32)
  finalAuth : AuthResult
  secureCounter : Option (BitVec 32)

namespace BlockCipher

variable (aes : BlockCipher)

/-- the `do_provision` block: `none` where it jumps to `cleanup`, else `counter_key` and
`counter_key_no` after it -/
def mainProvision (o : MainOptions) (newKey : Option Block) (rndA : Block) :
    Exchange (Option CounterKey) :=
  if o.newKeyNo > 0x0F then pure none else
  match newKey with
  | none => pure none
  | some newKey => do
    let a ← aes.authenticateEv2FirstEx o.key o.keyNo rndA Session.zero
    if !a.ok then pure none else
    let c ← aes.changeKeyEx a.sess o.newKeyNo 0 newKey 0x01
    if !c.ok then pure none else
    pure (some ⟨newKey, o.newKeyNo⟩)

/-- the `do_rotate_key` block from `counter_key` and `counter_key_no` as they stand -/
def mainRotate (o : MainOptions) (ck : CounterKey) (oldKey newKey : Option Block)
    (rndA : Block) : Exchange (Option CounterKey) :=
  if o.rotateKeyNo > 0x0F then pure none else
  match oldKey, newKey with
  | some oldKey, some newKey => do
    let a ← aes.authenticateEv2FirstEx o.key o.keyNo rndA Session.zero
    if !a.ok then pure none else
    let c ← aes.changeKeyEx a.sess o.rotateKeyNo oldKey newKey 0x01
    if !c.ok then pure none else
    pure (some (if o.rotateKeyNo = ck.keyNo then { ck with key := newKey } else ck))
  | _, _ => pure none

/-- the `do_sdm_setup` block, `fs_info` as the first FileSettings read left it: whether it
got to its end. The FileSettings it reads back are only printed. -/
def mainSdmSetup (o : MainOptions) (fsInfo : FileSettingsInfo) (rndA : Block) :
    Exchange Bool :=
  if o.sdmKeyNo > 0x0F then pure false else
  match buildSdmNdef o.sdmBaseUrl with
  | none => pure false
  | some sdm => do
    let a ← aes.authenticateEv2FirstEx o.key o.keyNo rndA Session.zero
    if !a.ok then pure false else
    let ar1 := if fsInfo.valid then fsInfo.ar1 else 0xE0
    let ar2 := if fsInfo.valid then fsInfo.ar2 else 0xEE
    let c ← aes.changeFileSettingsSdmEx a.sess o.counterFileNo 0x00 ar1 ar2 0xC1 0x0E
      o.sdmKeyNo o.sdmKeyNo (.ofNat 32 sdm.uidOffset) (.ofNat 32 sdm.ctrOffset)
      (.ofNat 32 sdm.macInputOffset) (.ofNat 32 sdm.macOffset)
    if !c.ok then pure false else
    let w ← writeNdefFilePlainEx sdm.ndef
    if !w.ok then pure false else
    let p ← getFileSettingsPlainEx o.counterFileNo mainFsDataLen
    if p.1.isSome then pure true else do
    let _ ← aes.getFileSettingsSecureEx c.sess o.counterFileNo mainFsDataLen
    pure true

/-- the counter reads at the end of `main`: the plain read, EV2-First with `counter_key` and
`counter_key_no`, then on that session the secure FileSettings read when the plain one
failed at the start, and the secure counter read -/
def mainCounterReads (o : MainOptions) (ck : CounterKey) (fsPlainFailed : Bool)
    (rndA : Block) : Exchange MainEnd := do
  let pc ← getSdmReadCounterEx o.counterFileNo
  let a ← aes.authenticateEv2FirstEx ck.key ck.keyNo rndA Session.zero
  if !a.ok then pure ⟨ck, pc.1, a, none⟩ else
  let sess ← (if fsPlainFailed then do
      let q ← aes.getFileSettingsSecureEx a.sess o.counterFileNo mainFsDataLen
      pure q.sess
    else pure a.sess)
  let c ← aes.secureReadCounterEx sess o.counterFileNo
  pure ⟨ck, pc.1, a, c⟩

/-- the provisioning and rotation blocks, each when asked for: `none` when one jumped to
`cleanup`, else `counter_key` and `counter_key_no` after them -/
def mainKeyBlocks (o : MainOptions) (i : MainInputs) : Exchange (Option CounterKey) := do
  let ck? ← (if o.doProvision then aes.mainProvision o i.provisionKey i.rndProvision
    else pure (some ⟨o.key, o.keyNo⟩))
  match ck? with
  | none => pure none
  | some ck =>
    if o.doRotateKey then aes.mainRotate o ck i.rotateOldKey i.rotateNewKey i.rndRotate
    else pure (some ck)

/-- what follows the key blocks: the SDM block when asked for, then the counter reads -/
def mainSdmAndCounters (o : MainOptions) (i : MainInputs) (fsInfo : FileSettingsInfo)
    (fsPlainFailed : Bool) (ck : CounterKey) : Exchange (Option MainEnd) := do
  let sdmOk ← (if o.doSdmSetup then aes.mainSdmSetup o fsInfo i.rndSdm else pure true)
  if !sdmOk then pure none else
  let e ← aes.mainCounterReads o ck fsPlainFailed i.rndFinal
  pure (some e)

/-- `main` from the FileSettings read of `counter_file_no` to `cleanup`: `none` when a block
jumped there -/
def mainCardPhase (o : MainOptions) (i : MainInputs) : Exchange (Option MainEnd) := do
  let p ← getFileSettingsPlainEx o.counterFileNo mainFsDataLen
  let fsInfo := match p.1 with
    | some d => (parseFileSettings d).info
    | none => FileSettingsInfo.zero
  let ck? ← aes.mainKeyBlocks o i
  match ck? with
  | none => pure none
  | some ck => aes.mainSdmAndCounters o i fsInfo p.1.isNone ck

end BlockCipher

/-- what `main` draws with `random_bytes`: the new key of `--provision` and of `--rotate-key`
when no key file gives one, and the `RndA` of each EV2-First -/
structure MainDraws where
  provisionKey : Block
  rotateNewKey : Block
  rndProvision : Block
  rndRotate : Block
  rndSdm : Block
  rndFinal : Block

/-- the key files of the provisioning and rotation blocks, which each block reads and writes
after its key-number check and before it authenticates, and the keys they give the card
phase. The files do not depend on the card's answers. -/
def mainKeyFiles (fs : Files) (o : MainOptions) (p : KeyPaths) (d : MainDraws) :
    MainInputs × Files :=
  let prov := if o.doProvision = true ∧ o.newKeyNo ≤ 0x0F then
      provisionKeyOf fs p o.newKeyNo d.provisionKey
    else (none, fs)
  let rot := if o.doRotateKey = true ∧ o.rotateKeyNo ≤ 0x0F then
      rotateKeysOf prov.2 p o.rotateKeyNo d.rotateNewKey
    else (none, none, prov.2)
  (⟨prov.1, rot.1, rot.2.1, d.rndProvision, d.rndRotate, d.rndSdm, d.rndFinal⟩, rot.2.2)

end Ntag424

import Ntag424.Spec.Commands

/-! The host's side of the card link as a program. `send apdu k` hands `apdu` to `transmit`
and goes on with `k` of the answer, `none` when `SCardTransmit` fails; `done a` has finished
with `a`. A program runs against a card: a state machine that answers each APDU.

The routines `main` calls are written here as such programs, each from its model on given
answers, so that the APDUs they send are the ones those models record. A routine that
transmits once sends the APDU its model says it transmits, if any; `authenticate_ev2_first`
sends part 2 only when part 1 went through; `write_ndef_file_plain` stops at the first APDU
that fails. -/

namespace Ntag424

/-- a program on the card link -/
inductive Exchange (α : Type) where
  | done : α → Exchange α
  | send : List Byte → (Option (List Byte) → Exchange α) → Exchange α

namespace Exchange

variable {α β κ : Type}

def bind : Exchange α → (α → Exchange β) → Exchange β
  | done a, f => f a
  | send apdu k, f => send apdu fun r => (k r).bind f

instance : Monad Exchange where
  pure := done
  bind := bind

/-- the program run against `card`, which in state `c` answers `apdu` with `(card c apdu).2`
and moves to `(card c apdu).1`: the card's last state and the program's value -/
def run (card : κ → List Byte → κ × Option (List Byte)) : κ → Exchange α → κ × α
  | c, done a => (c, a)
  | c, send apdu k => run card (card c apdu).1 (k (card c apdu).2)

/-- every APDU the program can send, whatever the answers, satisfies `P` -/
def AllSent (P : List Byte → Prop) : Exchange α → Prop
  | done _ => True
  | send apdu k => P apdu ∧ ∀ r, (k r).AllSent P

/-- the card that answers the `k`-th APDU with `replies k`, whatever it is -/
def replyCard (replies : Nat → Option (List Byte)) (k : Nat) (_ : List Byte) :
    Nat × Option (List Byte) :=
  (k + 1, replies k)

end Exchange

/-- a routine that transmits at most once: `apdu` when it gets that far, and the result `f`
makes of the answer -/
def oneApdu {γ : Type} (apdu : Option (List Byte)) (f : Option (List Byte) → γ) : Exchange γ :=
  match apdu with
  | none => .done (f none)
  | some a => .send a fun r => .done (f r)

/-- `select_ndef_app` -/
def selectNdefAppEx : Exchange PlainResult :=
  oneApdu (selectNdefApp none).sent.head? selectNdefApp

/-- `select_file(card, pio, file_id, &sw)` -/
def selectFileEx (fileId : BitVec 16) : Exchange PlainResult :=
  oneApdu (selectFile fileId none).sent.head? (selectFile fileId)

/-- `get_file_settings_plain` into a buffer of `outCap` bytes -/
def getFileSettingsPlainEx (fileNo : Byte) (outCap : Nat) :
    Exchange (Option (List Byte) × BitVec 16) :=
  oneApdu (some (getFileSettingsPlainApdu fileNo)) (getFileSettingsPlain outCap)

/-- `get_sdm_read_counter` -/
def getSdmReadCounterEx (fileNo : Byte) : Exchange (Option (BitVec 32) × BitVec 16) :=
  oneApdu (some (getSdmReadCounterApdu fileNo)) getSdmReadCounter

/-- the loop of `write_ndef_file_plain` from `offset` on, `sw` as the last APDU left it -/
def writeChunksEx (data : List Byte) (offset : Nat) (sw : BitVec 16) : Exchange PlainResult :=
  if offset < data.length then
    let chunk := min (data.length - offset) 0xFF
    let apdu := updateBinaryApdu offset ((data.drop offset).take chunk)
    .send apdu fun r => do
      let t := plainTransmit sw r
      if !t.1 || !swOk t.2 then pure ⟨false, t.2, [apdu]⟩ else
      let rest ← writeChunksEx data (offset + chunk) t.2
      pure ⟨rest.ok, rest.sw, apdu :: rest.sent⟩
  else pure ⟨true, 0x9000, []⟩
termination_by data.length - offset

/-- `write_ndef_file_plain(card, pio, data, len, &sw)` -/
def writeNdefFilePlainEx (data : List Byte) : Exchange PlainResult := do
  let app ← selectNdefAppEx
  if !app.ok then pure app else
  let file ← selectFileEx 0xE104
  if !file.ok then pure ⟨false, file.sw, app.sent ++ file.sent⟩ else
  let r ← writeChunksEx data 0 file.sw
  pure ⟨r.ok, r.sw, app.sent ++ file.sent ++ r.sent⟩

namespace BlockCipher

variable (aes : BlockCipher)

/-- `authenticate_ev2_first(card, pio, key, key_no, sess)` with host nonce `rndA` -/
def authenticateEv2FirstEx (key : Block) (keyNo : Byte) (rndA : Block) (sess : Session) :
    Exchange AuthResult := do
  let r1 ← .send (ev2FirstApdu1 keyNo) .done
  match aes.ev2FirstPart1 key rndA r1 with
  | none => pure (aes.authenticateEv2First key keyNo rndA r1 none sess)
  | some (_, rndABEnc) => do
    let r2 ← .send (ev2FirstApdu2 rndABEnc) .done
    pure (aes.authenticateEv2First key keyNo rndA r1 r2 sess)

/-- `ssm_cmd_full(card, pio, sess, cmd, header, data, out, &out_len, &sw)` -/
def ssmCmdFullEx (s : Session) (cmd : Byte) (header data : List Byte) (outCap : Nat) :
    Exchange SsmResult :=
  oneApdu (aes.ssmCmdFull s cmd header data outCap none).apdu
    (aes.ssmCmdFull s cmd header data outCap)

/-- `change_key(card, pio, sess, key_no, old_key, new_key, key_ver, &sw)` -/
def changeKeyEx (s : Session) (keyNo : Byte) (oldKey newKey : Block) (keyVer : Byte) :
    Exchange SsmResult :=
  oneApdu (aes.changeKey s keyNo oldKey newKey keyVer none).apdu
    (aes.changeKey s keyNo oldKey newKey keyVer)

/-- `change_file_settings_sdm(card, pio, sess, file_no, ...)` -/
def changeFileSettingsSdmEx (s : Session) (fileNo commMode ar1 ar2 sdmOptions sdmMeta sdmFile
    sdmCtr : Byte) (uidOffset sdmReadCtrOffset sdmMacInputOffset sdmMacOffset : BitVec 32) :
    Exchange SsmResult :=
  oneApdu (aes.changeFileSettingsSdm s fileNo commMode ar1 ar2 sdmOptions sdmMeta sdmFile sdmCtr
      uidOffset sdmReadCtrOffset sdmMacInputOffset sdmMacOffset none).apdu
    (aes.changeFileSettingsSdm s fileNo commMode ar1 ar2 sdmOptions sdmMeta sdmFile sdmCtr
      uidOffset sdmReadCtrOffset sdmMacInputOffset sdmMacOffset)

/-- `get_file_settings_secure(card, pio, sess, file_no, out, &out_len, &sw)` -/
def getFileSettingsSecureEx (s : Session) (fileNo : Byte) (outCap : Nat) : Exchange SsmResult :=
  oneApdu (aes.getFileSettingsSecure s fileNo outCap none).apdu
    (aes.getFileSettingsSecure s fileNo outCap)

/-- `main`'s secure counter read, `ssm_cmd_full` with command `F6` -/
def secureReadCounterEx (s : Session) (fileNo : Byte) : Exchange (Option (BitVec 32)) :=
  oneApdu (aes.ssmCmdFull s 0xF6 [fileNo] [] 16 none).apdu (aes.secureReadCounter s fileNo)

end BlockCipher

end Ntag424

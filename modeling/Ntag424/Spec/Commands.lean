import Ntag424.Spec.FileSettings

/-! The card commands around secure messaging. `write_ndef_file_plain` selects the NDEF
application and file `E104` and writes the record in plain `UPDATE BINARY` chunks of at most
255 bytes. `change_key` sends `NewKey ⊕ OldKey ‖ KeyVer ‖ CRC32(NewKey)` in communication mode
Full. `get_sdm_read_counter` reads the counter in plain, three bytes least significant first.
`get_uid`, `get_ats` and `get_file_settings_plain` copy out the card's answer.
Card replies are inputs: in a command that sends several APDUs, reply `k` answers the `k`-th. -/

namespace Ntag424

/-- `sw_ok(sw)` -/
def swOk (sw : BitVec 16) : Bool := sw == 0x9000 || sw == 0x9100

/-- the return value of a plain command, `*sw_out`, and the APDUs it hands to the transport -/
structure PlainResult where
  ok : Bool
  sw : BitVec 16
  sent : List (List Byte)

/-- `transmit` into a `MAX_APDU` buffer: whether it succeeded, and `sw`, which keeps its value
when it did not -/
def plainTransmit (sw : BitVec 16) (reply : Option (List Byte)) : Bool × BitVec 16 :=
  match transmit maxApdu reply with
  | some (_, sw') => (true, sw')
  | none => (false, sw)

/-- `select_ndef_app` and `select_file`: one plain APDU, `sw` starting at 0 -/
def plainSelect (apdu : List Byte) (reply : Option (List Byte)) : PlainResult :=
  let t := plainTransmit 0 reply
  ⟨t.1 && swOk t.2, t.2, [apdu]⟩

/-- `select_ndef_app(card, pio, &sw)`: `00 A4 04 00 07 D2760000850101 00` -/
def selectNdefApp (reply : Option (List Byte)) : PlainResult :=
  plainSelect [0x00, 0xA4, 0x04, 0x00, 0x07, 0xD2, 0x76, 0x00, 0x00, 0x85, 0x01, 0x01, 0x00] reply

/-- `select_file(card, pio, file_id, &sw)`: `00 A4 00 0C 02 FileID` -/
def selectFile (fileId : BitVec 16) (reply : Option (List Byte)) : PlainResult :=
  plainSelect [0x00, 0xA4, 0x00, 0x0C, 0x02, ((fileId >>> 8) &&& 0xFF).setWidth 8,
    (fileId &&& 0xFF).setWidth 8] reply

/-- `UPDATE BINARY` of `chunk` at `offset`: `00 D6 P1 P2 Lc chunk` -/
def updateBinaryApdu (offset : Nat) (chunk : List Byte) : List Byte :=
  [0x00, 0xD6, BitVec.ofNat 8 ((offset >>> 8) &&& 0xFF), BitVec.ofNat 8 (offset &&& 0xFF),
    BitVec.ofNat 8 chunk.length] ++ chunk

/-- the loop of `write_ndef_file_plain` from `offset` on, reply `k` answering the next chunk -/
def writeChunks (data : List Byte) (replies : Nat → Option (List Byte)) (offset : Nat)
    (sw : BitVec 16) (k : Nat) : PlainResult :=
  if h : offset < data.length then
    let chunk := min (data.length - offset) 0xFF
    let apdu := updateBinaryApdu offset ((data.drop offset).take chunk)
    let t := plainTransmit sw (replies k)
    if !t.1 || !swOk t.2 then ⟨false, t.2, [apdu]⟩ else
    let r := writeChunks data replies (offset + chunk) t.2 (k + 1)
    ⟨r.ok, r.sw, apdu :: r.sent⟩
  else ⟨true, 0x9000, []⟩
termination_by data.length - offset

/-- `write_ndef_file_plain(card, pio, data, len, &sw)`: replies `0` and `1` answer the two
`SELECT`s, reply `k + 2` the `k`-th chunk -/
def writeNdefFilePlain (data : List Byte) (replies : Nat → Option (List Byte)) : PlainResult :=
  let app := selectNdefApp (replies 0)
  if !app.ok then app else
  let file := selectFile 0xE104 (replies 1)
  if !file.ok then ⟨false, file.sw, app.sent ++ file.sent⟩ else
  let r := writeChunks data replies 0 file.sw 2
  ⟨r.ok, r.sw, app.sent ++ file.sent ++ r.sent⟩

/-- `get_uid` and `get_ats`: the APDU, and the bytes copied out when the call returns 1, the
whole answer whatever its length -/
def plainGet (apdu : List Byte) (reply : Option (List Byte)) : List Byte × Option (List Byte) :=
  (apdu, match transmit maxApdu reply with
    | some (resp, sw) => if swOk sw && resp.length != 0 then some resp else none
    | none => none)

/-- `get_uid(card, pio, uid, &uid_len)`: `FF CA 00 00 00` -/
def getUid (reply : Option (List Byte)) : List Byte × Option (List Byte) :=
  plainGet [0xFF, 0xCA, 0x00, 0x00, 0x00] reply

/-- `get_ats(card, pio, ats, &ats_len)`: `FF CA 01 00 00` -/
def getAts (reply : Option (List Byte)) : List Byte × Option (List Byte) :=
  plainGet [0xFF, 0xCA, 0x01, 0x00, 0x00] reply

/-- `sizeof(uid)` in `main` -/
def mainUidLen : Nat := 16

/-- `sizeof(ats)` in `main` -/
def mainAtsLen : Nat := 32

/-- `sizeof(fs_data)` in `main` -/
def mainFsDataLen : Nat := 128

/-- `get_file_settings_plain(card, pio, file_no, out, &out_len, &sw)` with `*out_len = outCap`,
answered by `reply`: the bytes copied to `out` when it returns 1, and `*sw_out` -/
def getFileSettingsPlain (outCap : Nat) (reply : Option (List Byte)) :
    Option (List Byte) × BitVec 16 :=
  match transmit maxApdu reply with
  | none => (none, 0)
  | some (resp, sw) => (if swOk sw && resp.length ≤ outCap then some resp else none, sw)

/-- the APDU of `get_file_settings_plain`: `90 F5 00 00 01 FileNo 00` -/
def getFileSettingsPlainApdu (fileNo : Byte) : List Byte :=
  [0x90, 0xF5, 0x00, 0x00, 0x01, fileNo, 0x00]

/-- `get_sdm_read_counter(card, pio, file_no, &counter, &sw)` answered by `reply`: the counter
when it returns 1, and `*sw_out` -/
def getSdmReadCounter (reply : Option (List Byte)) : Option (BitVec 32) × BitVec 16 :=
  match transmit maxApdu reply with
  | none => (none, 0)
  | some (resp, sw) => (if swOk sw && 3 ≤ resp.length then some (readU24Le resp) else none, sw)

/-- the APDU of `get_sdm_read_counter`: `90 F6 00 00 01 FileNo 00` -/
def getSdmReadCounterApdu (fileNo : Byte) : List Byte := [0x90, 0xF6, 0x00, 0x00, 0x01, fileNo, 0x00]

/-- `key_data` of `change_key`: `NewKey ⊕ OldKey ‖ KeyVer ‖ CRC32(NewKey)`, the CRC least
significant byte first -/
def changeKeyData (oldKey newKey : Block) (keyVer : Byte) : List Byte :=
  let crc := crc32Ieee newKey.toList
  (newKey.xor oldKey).toList ++ [keyVer, (crc &&& 0xFF).setWidth 8,
    ((crc >>> 8) &&& 0xFF).setWidth 8, ((crc >>> 16) &&& 0xFF).setWidth 8,
    ((crc >>> 24) &&& 0xFF).setWidth 8]

namespace BlockCipher

variable (aes : BlockCipher)

/-- `change_key(card, pio, sess, key_no, old_key, new_key, key_ver, &sw)`: `key_data` sent in
communication mode Full with header `KeyNo`, into a 16-byte answer buffer -/
def changeKey (s : Session) (keyNo : Byte) (oldKey newKey : Block) (keyVer : Byte)
    (reply : Option (List Byte)) : SsmResult :=
  aes.ssmCmdFull s 0xC4 [keyNo] (changeKeyData oldKey newKey keyVer) 16 reply

/-- `get_file_settings_secure(card, pio, sess, file_no, out, &out_len, &sw)` -/
def getFileSettingsSecure (s : Session) (fileNo : Byte) (outCap : Nat)
    (reply : Option (List Byte)) : SsmResult :=
  aes.ssmCmdFull s 0xF5 [fileNo] [] outCap reply

/-- `main`'s secure counter read: `ssm_cmd_full` with command `F6` and header `FileNo` into
the 16-byte `resp`, then the counter from its first three bytes, least significant first, when
the call returns 1 with `resp_len ≥ 3` -/
def secureReadCounter (s : Session) (fileNo : Byte) (reply : Option (List Byte)) :
    Option (BitVec 32) :=
  match (aes.ssmCmdFull s 0xF6 [fileNo] [] 16 reply).out with
  | some resp => if 3 ≤ resp.length then some (readU24Le resp) else none
  | none => none

end BlockCipher

end Ntag424

import Ntag424.Spec.SecureMessaging

/-! The FileSettings codec: `change_file_settings_sdm` builds the data field of
`ChangeFileSettings` (INS `5F`), and `parse_file_settings` reads the answer to
`GetFileSettings`. The parser reads the optional `u24` fields after `SDMAccessRights` in
groups, each behind one bound check and each present under its own test; it only prints
them, so its model returns them in the order it reads them, together with `*info`, the
return value and the index it stops at. -/

namespace Ntag424

/-- `file_settings_info_t` -/
structure FileSettingsInfo where
  valid : Bool
  sdmEnabled : Bool
  sdmReadCtrEnabled : Bool
  fileOption : Byte
  sdmOptions : Byte
  sdmMetaRead : Byte
  sdmFileRead : Byte
  sdmCtrRet : Byte
  ar1 : Byte
  ar2 : Byte
  fileSize : BitVec 32
deriving DecidableEq

/-- `memset(info, 0, sizeof(*info))` -/
def FileSettingsInfo.zero : FileSettingsInfo := ⟨false, false, false, 0, 0, 0, 0, 0, 0, 0, 0⟩

/-- the `u24` fields after `SDMAccessRights`, under the names the parser prints -/
inductive SdmField
  | uidOffset
  | readCtrOffset
  | piccDataOffset
  | macInputOffset
  | encOffset
  | encLength
  | macOffset
  | readCtrLimit
deriving DecidableEq, Repr

/-- the field groups `parse_file_settings` expects for `SDMOptions`, `SDMMetaRead` and
`SDMFileRead`, in order; each group is read after one bound check -/
def sdmFieldGroups (sdmOptions sdmMeta sdmFile : Byte) : List (List SdmField) :=
  (if sdmOptions &&& 0x80 ≠ 0 ∧ sdmMeta = 0x0E then [[.uidOffset]] else []) ++
  (if sdmOptions &&& 0x40 ≠ 0 ∧ sdmMeta = 0x0E then [[.readCtrOffset]] else []) ++
  (if sdmMeta ≤ 0x04 then [[.piccDataOffset]] else []) ++
  (if sdmFile ≠ 0x0F then [[.macInputOffset]] else []) ++
  (if sdmFile ≠ 0x0F ∧ sdmOptions &&& 0x10 ≠ 0 then [[.encOffset, .encLength]] else []) ++
  (if sdmFile ≠ 0x0F then [[.macOffset]] else []) ++
  (if sdmOptions &&& 0x20 ≠ 0 then [[.readCtrLimit]] else [])

/-- the groups from `idx` on: `if (len < idx + 3·|g|) return 0;` then `read_u24_le` for each
field of `g`; the return value, the fields read and the final `idx` -/
def readGroups (data : List Byte) : Nat → List (List SdmField) →
    Bool × List (SdmField × BitVec 32) × Nat
  | idx, [] => (true, [], idx)
  | idx, g :: gs =>
    if data.length < idx + 3 * g.length then (false, [], idx)
    else
      let r := readGroups data (idx + 3 * g.length) gs
      (r.1, g.mapIdx (fun k f => (f, readU24Le (data.drop (idx + 3 * k)))) ++ r.2.1, r.2.2)

/-- what `parse_file_settings` leaves: its return value, `*info`, the file type and the
offset fields it prints, and the index it stops at -/
structure ParsedFileSettings where
  ok : Bool
  info : FileSettingsInfo
  fileType : Byte
  fields : List (SdmField × BitVec 32)
  idx : Nat

/-- `parse_file_settings(data, len, info)` with `len = data.length` -/
def parseFileSettings (data : List Byte) : ParsedFileSettings :=
  if data.length < 7 then ⟨false, .zero, 0, [], 0⟩ else
  let fileType := data.getD 0 0
  let fileOption := data.getD 1 0
  let info : FileSettingsInfo :=
    { FileSettingsInfo.zero with
      valid := true, fileOption := fileOption, fileSize := readU24Le (data.drop 4),
      sdmEnabled := fileOption &&& 0x40 ≠ 0, ar1 := data.getD 2 0, ar2 := data.getD 3 0 }
  if fileOption &&& 0x40 = 0 then ⟨true, info, fileType, [], 7⟩ else
  if data.length < 7 + 3 then ⟨false, info, fileType, [], 7⟩ else
  let sdmOptions := data.getD 7 0
  let sdmAr : BitVec 16 := (data.getD 8 0).setWidth 16 ||| ((data.getD 9 0).setWidth 16 <<< 8)
  let sdmMeta := ((sdmAr >>> 12) &&& 0x0F).setWidth 8
  let sdmFile := ((sdmAr >>> 8) &&& 0x0F).setWidth 8
  let sdmCtr := (sdmAr &&& 0x0F).setWidth 8
  let info :=
    { info with
      sdmOptions := sdmOptions, sdmMetaRead := sdmMeta, sdmFileRead := sdmFile,
      sdmCtrRet := sdmCtr, sdmReadCtrEnabled := sdmOptions &&& 0x40 ≠ 0 }
  let r := readGroups data 10 (sdmFieldGroups sdmOptions sdmMeta sdmFile)
  ⟨r.1, info, fileType, r.2.1, r.2.2⟩

/-- `read_u24_le(&data[i])`, reading `data[i]`, `data[i + 1]` and `data[i + 2]`; `none` when one
of them lies outside `data` -/
def readU24Checked (data : List Byte) (i : Nat) : Option (BitVec 32) :=
  data[i]?.bind fun b0 => data[i + 1]?.bind fun b1 => data[i + 2]?.map fun b2 =>
    readU24Le [b0, b1, b2]

/-- the fields of one group from `idx` on, each `read_u24_le(&data[idx]); idx += 3;` -/
def readFieldsChecked (data : List Byte) (idx : Nat) :
    List SdmField → Option (List (SdmField × BitVec 32))
  | [] => some []
  | f :: fs => (readU24Checked data idx).bind fun v =>
    (readFieldsChecked data (idx + 3) fs).map ((f, v) :: ·)

/-- `readGroups` with its reads checked -/
def readGroupsChecked (data : List Byte) :
    Nat → List (List SdmField) → Option (Bool × List (SdmField × BitVec 32) × Nat)
  | idx, [] => some (true, [], idx)
  | idx, g :: gs =>
    if data.length < idx + 3 * g.length then some (false, [], idx) else
    (readFieldsChecked data idx g).bind fun vs =>
    (readGroupsChecked data (idx + 3 * g.length) gs).map fun r => (r.1, vs ++ r.2.1, r.2.2)

/-- `parse_file_settings` with each read of `data` checked: `none` where the C code would
read outside the `len` bytes it was given -/
def parseFileSettingsChecked (data : List Byte) : Option ParsedFileSettings :=
  if data.length < 7 then some ⟨false, .zero, 0, [], 0⟩ else
  data[0]?.bind fun fileType => data[1]?.bind fun fileOption =>
  data[2]?.bind fun ar1 => data[3]?.bind fun ar2 =>
  (readU24Checked data 4).bind fun fileSize =>
  let info : FileSettingsInfo :=
    { FileSettingsInfo.zero with
      valid := true, fileOption := fileOption, fileSize := fileSize,
      sdmEnabled := fileOption &&& 0x40 ≠ 0, ar1 := ar1, ar2 := ar2 }
  if fileOption &&& 0x40 = 0 then some ⟨true, info, fileType, [], 7⟩ else
  if data.length < 7 + 3 then some ⟨false, info, fileType, [], 7⟩ else
  data[7]?.bind fun sdmOptions => data[8]?.bind fun lsb => data[9]?.bind fun msb =>
  let sdmAr : BitVec 16 := lsb.setWidth 16 ||| (msb.setWidth 16 <<< 8)
  let sdmMeta := ((sdmAr >>> 12) &&& 0x0F).setWidth 8
  let sdmFile := ((sdmAr >>> 8) &&& 0x0F).setWidth 8
  let sdmCtr := (sdmAr &&& 0x0F).setWidth 8
  let info :=
    { info with
      sdmOptions := sdmOptions, sdmMetaRead := sdmMeta, sdmFileRead := sdmFile,
      sdmCtrRet := sdmCtr, sdmReadCtrEnabled := sdmOptions &&& 0x40 ≠ 0 }
  (readGroupsChecked data 10 (sdmFieldGroups sdmOptions sdmMeta sdmFile)).map fun r =>
    ⟨r.1, info, fileType, r.2.1, r.2.2⟩

/-- the data field `change_file_settings_sdm` builds: `FileOption ‖ AR1 ‖ AR2 ‖ SDMOptions ‖
SDMAccessRights` and the offsets it writes -/
def changeFileSettingsSdmData (commMode ar1 ar2 sdmOptions sdmMeta sdmFile sdmCtr : Byte)
    (uidOffset sdmReadCtrOffset sdmMacInputOffset sdmMacOffset : BitVec 32) : List Byte :=
  let fileOption := (commMode &&& 0x03) ||| 0x40
  let sdmAr : BitVec 16 :=
    ((sdmMeta &&& 0x0F).setWidth 16 <<< 12) ||| ((sdmFile &&& 0x0F).setWidth 16 <<< 8) |||
      (0x0F <<< 4) ||| (sdmCtr &&& 0x0F).setWidth 16
  [fileOption, ar1, ar2, sdmOptions, (sdmAr &&& 0xFF).setWidth 8,
    ((sdmAr >>> 8) &&& 0xFF).setWidth 8] ++
  (if sdmOptions &&& 0x80 ≠ 0 ∧ sdmMeta = 0x0E then writeU24Le uidOffset else []) ++
  (if sdmOptions &&& 0x40 ≠ 0 ∧ sdmMeta = 0x0E then writeU24Le sdmReadCtrOffset else []) ++
  (if sdmFile ≠ 0x0F then writeU24Le sdmMacInputOffset else []) ++
  (if sdmFile ≠ 0x0F then writeU24Le sdmMacOffset else [])

namespace BlockCipher

variable (aes : BlockCipher)

/-- `change_file_settings_sdm(card, pio, sess, file_no, ...)`: the data field sent in
communication mode Full with header `FileNo`, into a 16-byte answer buffer -/
def changeFileSettingsSdm (s : Session) (fileNo commMode ar1 ar2 sdmOptions sdmMeta sdmFile
    sdmCtr : Byte) (uidOffset sdmReadCtrOffset sdmMacInputOffset sdmMacOffset : BitVec 32)
    (reply : Option (List Byte)) : SsmResult :=
  aes.ssmCmdFull s 0x5F [fileNo] (changeFileSettingsSdmData commMode ar1 ar2 sdmOptions sdmMeta
    sdmFile sdmCtr uidOffset sdmReadCtrOffset sdmMacInputOffset sdmMacOffset) 16 reply

end BlockCipher

end Ntag424

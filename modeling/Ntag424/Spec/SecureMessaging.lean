import Ntag424.Spec.Session

/-! `ssm_cmd_full`, EV2 secure messaging in communication mode Full. A call wraps the
command under the session keys, hands the APDU to the transport, and unwraps the card's
answer. `ssmWrap` is lines 655-715 and `ssmUnwrap` lines 725-771; `ssmCmdFull` strings them
together with the transport and records what the call leaves behind: the return value, the
session, the APDU handed to `SCardTransmit`, the status word written to `*sw_out`, and the
bytes written to `out`. A run is a list of calls, each answered by the transport. -/

namespace Ntag424

/-- what one `ssm_cmd_full` call leaves: its return value, the session, the APDU it
transmitted, the status word it stored and the plaintext it copied out (`none` where the
call did not get that far) -/
structure SsmResult where
  ok : Bool
  sess : Session
  apdu : Option (List Byte)
  sw : Option (BitVec 16)
  out : Option (List Byte)

/-- `ivc_in`: `A5 5A ‖ TI ‖ CmdCtr ‖ 0^8` -/
def ivcIn (s : Session) : Block := Bytes.ofList ([0xA5, 0x5A] ++ s.ti.toList ++ le16 s.cmdCtr)

/-- `ivr_in`: `5A A5 ‖ TI ‖ (CmdCtr + 1) ‖ 0^8` -/
def ivrIn (s : Session) : Block :=
  Bytes.ofList ([0x5A, 0xA5] ++ s.ti.toList ++ le16 (s.cmdCtr + 1))

/-- one call: the command byte, header, data and `*out_len`, and the transport's answer -/
structure SsmCall where
  cmd : Byte
  header : List Byte
  data : List Byte
  outCap : Nat
  reply : Option (List Byte)

namespace BlockCipher

variable (aes : BlockCipher)

/-- lines 655-715: the command APDU `90 INS 00 00 Lc ‖ H ‖ E ‖ MACt ‖ 00`, or `none` where
the C code returns 0 before transmitting. The C code fills `padded[512]` and `mac_input[512]`
before the check of line 703, so a call with `7 + |H| + |E| > 512` writes past `mac_input`;
the model has no buffers and gives that check's refusal. -/
def ssmWrap (s : Session) (cmd : Byte) (header data : List Byte) : Option (List Byte) := do
  let ivc := aes.ecbEncrypt s.kenc (ivcIn s)
  let enc ← if data.length > 0 then do
      let padded := padIso9797M2 data
      if padded.2 > maxApdu then failure
      aes.aesCbcCrypt true s.kenc ivc padded.1
    else pure []
  let macInput := cmd :: le16 s.cmdCtr ++ s.ti.toList ++ header ++ enc
  let mact := cmacTruncate8 (aes.aesCmac s.kmac macInput)
  let dataLen := header.length + enc.length + 8
  if dataLen > 255 then failure
  pure ([0x90, cmd, 0x00, 0x00, BitVec.ofNat 8 dataLen] ++ header ++ enc ++ mact ++ [0x00])

/-- lines 725-771: the plaintext of the card's answer `resp` with status `sw`, for a caller
buffer of `outCap` bytes, or `none` where the C code returns 0 -/
def ssmUnwrap (s : Session) (outCap : Nat) (resp : List Byte) (sw : BitVec 16) :
    Option (List Byte) := do
  if sw &&& 0xFF00 ≠ 0x9100 then failure
  if resp.length < 8 then failure
  let respEnc := resp.take (resp.length - 8)
  let respMact := resp.drop (resp.length - 8)
  let ivr := aes.ecbEncrypt s.kenc (ivrIn s)
  let macIn2 := (sw &&& 0xFF).setWidth 8 :: le16 (s.cmdCtr + 1) ++ s.ti.toList ++ respEnc
  if respMact ≠ cmacTruncate8 (aes.aesCmac s.kmac macIn2) then failure
  if respEnc.length > 0 then
    let dec ← aes.aesCbcCrypt false s.kenc ivr respEnc
    let outWritten := unpadIso9797M2 dec
    if outWritten > outCap then failure
    pure (dec.take outWritten)
  else pure []

/-- `ssm_cmd_full(card, pio, sess, cmd, header, data, out, out_len, sw_out)`, where the
transport answers the APDU with `reply` -/
def ssmCmdFull (s : Session) (cmd : Byte) (header data : List Byte) (outCap : Nat)
    (reply : Option (List Byte)) : SsmResult :=
  if s.authenticated = false then ⟨false, s, none, none, none⟩ else
  match aes.ssmWrap s cmd header data with
  | none => ⟨false, s, none, none, none⟩
  | some apdu =>
    match transmit maxApdu reply with
    | none => ⟨false, s, some apdu, none, none⟩
    | some (resp, sw) =>
      match aes.ssmUnwrap s outCap resp sw with
      | none => ⟨false, s, some apdu, some sw, none⟩
      | some p => ⟨true, { s with cmdCtr := s.cmdCtr + 1 }, some apdu, some sw, some p⟩

/-- one call of a run -/
def ssmCall (s : Session) (c : SsmCall) : SsmResult :=
  aes.ssmCmdFull s c.cmd c.header c.data c.outCap c.reply

/-- the session after a run of calls -/
def ssmFinal (s : Session) : List SsmCall → Session
  | [] => s
  | c :: cs => ssmFinal (aes.ssmCall s c).sess cs

/-- a run of calls: each call's session on entry, and its result -/
def ssmTrace (s : Session) : List SsmCall → List (Session × SsmResult)
  | [] => []
  | c :: cs => (s, aes.ssmCall s c) :: ssmTrace (aes.ssmCall s c).sess cs

end BlockCipher

end Ntag424

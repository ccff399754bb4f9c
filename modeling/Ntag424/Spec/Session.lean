import Ntag424.Spec.Transport

/-! `ssm_session_t` and `authenticate_ev2_first`. The host nonce `RndA`, which the C code
takes from `NTAG_RNDA` or the system RNG, is an input, and so are the two replies the
transport delivers. The handshake writes the session only at its end: every failure
returns the caller's session as it was. -/

namespace Ntag424

/-- `ssm_session_t` -/
structure Session where
  kenc : Block
  kmac : Block
  ti : Bytes 4
  cmdCtr : BitVec 16
  keyNo : Byte
  authenticated : Bool
deriving DecidableEq

/-- the return value of `authenticate_ev2_first`, the session it leaves, and the APDUs it
hands to the transport -/
structure AuthResult where
  ok : Bool
  sess : Session
  sent : List (List Byte)

/-- Part 1: `90 71 00 00 02 KeyNo 00 00` -/
def ev2FirstApdu1 (keyNo : Byte) : List Byte := [0x90, 0x71, 0x00, 0x00, 0x02, keyNo, 0x00, 0x00]

/-- Part 2: `90 AF 00 00 20 E(RndA ‖ RndB') 00` -/
def ev2FirstApdu2 (rndABEnc : List Byte) : List Byte :=
  [0x90, 0xAF, 0x00, 0x00, 0x20] ++ rndABEnc ++ [0x00]

def svPrefix1 : List Byte := [0xA5, 0x5A, 0x00, 0x01, 0x00, 0x80]

def svPrefix2 : List Byte := [0x5A, 0xA5, 0x00, 0x01, 0x00, 0x80]

/-- bytes 6 to 31 of `SV1` and `SV2`, as the `memcpy`s lay them out -/
def svTail (rndA rndB : Block) : List Byte :=
  rndA.toList.take 2 ++ List.zipWith (· ^^^ ·) ((rndA.toList.drop 2).take 6) (rndB.toList.take 6) ++
    (rndB.toList.drop 6).take 10 ++ (rndA.toList.drop 8).take 8

namespace BlockCipher

variable (aes : BlockCipher)

/-- lines 531-569 of `authenticate_ev2_first`: from the card's answer `r1` to part 1,
`RndB` and the cryptogram `E(RndA ‖ rotl1 RndB)` that part 2 carries -/
def ev2FirstPart1 (key rndA : Block) (r1 : Option (List Byte)) : Option (Block × List Byte) := do
  let (resp1, sw1) ← transmit maxApdu r1
  if sw1 ≠ 0x91AF ∨ resp1.length ≠ 16 then failure
  let rndBDec ← aes.aesCbcCrypt false key 0 resp1
  let rndB : Block := Bytes.ofList rndBDec
  let rndABEnc ← aes.aesCbcCrypt true key 0 (rndA.toList ++ rotateLeft1 rndB.toList)
  pure (rndB, rndABEnc)

/-- lines 580-595: from the card's answer `r2` to part 2, `TI`, once `RndA` checked out -/
def ev2FirstPart2 (key rndA : Block) (r2 : Option (List Byte)) : Option (Bytes 4) := do
  let (resp2, sw2) ← transmit maxApdu r2
  if sw2 ≠ 0x9100 ∨ resp2.length ≠ 32 then failure
  let dec ← aes.aesCbcCrypt false key 0 resp2
  if rotateRight1 ((dec.drop 4).take 16) ≠ rndA.toList then failure
  pure (Bytes.ofList dec)

/-- `authenticate_ev2_first(card, pio, key, key_no, sess)` with host nonce `rndA`, where the
transport answers part 1 with `r1` and part 2 with `r2` -/
def authenticateEv2First (key : Block) (keyNo : Byte) (rndA : Block)
    (r1 r2 : Option (List Byte)) (sess : Session) : AuthResult :=
  match aes.ev2FirstPart1 key rndA r1 with
  | none => ⟨false, sess, [ev2FirstApdu1 keyNo]⟩
  | some (rndB, rndABEnc) =>
    match aes.ev2FirstPart2 key rndA r2 with
    | none => ⟨false, sess, [ev2FirstApdu1 keyNo, ev2FirstApdu2 rndABEnc]⟩
    | some ti =>
      ⟨true, { kenc := aes.aesCmac key (svPrefix1 ++ svTail rndA rndB)
               kmac := aes.aesCmac key (svPrefix2 ++ svTail rndA rndB)
               ti := ti
               cmdCtr := 0
               keyNo := keyNo
               authenticated := true }, [ev2FirstApdu1 keyNo, ev2FirstApdu2 rndABEnc]⟩

end BlockCipher

end Ntag424

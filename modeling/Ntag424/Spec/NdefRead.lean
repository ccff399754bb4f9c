import Ntag424.Spec.Commands

/-! `main`'s plain NDEF read. After `SELECT` of the NDEF file it reads `NLEN` with a
two-byte `READ BINARY` at offset 0, then loops: while `remaining > 0` it asks for
`min(remaining, 255)` bytes at `offset` and copies what comes back to `ndef + total`. The
lengths are `uint16_t` and wrap. `read_binary` copies the whole answer body to `out`; on
`6Cxx` it first sends the APDU again with `Le = SW2`.

Here the card sees every APDU: `card t apdu` is its answer to the `t`-th APDU, `apdu`. The
loop is run on fuel, one unit an iteration, since a card can keep it going forever. -/

namespace Ntag424

/-- `READ BINARY` of `le` bytes at `offset`: `00 B0 P1 P2 Le` -/
def readBinaryApdu (offset : BitVec 16) (le : Byte) : List Byte :=
  [0x00, 0xB0, ((offset >>> 8) &&& 0xFF).setWidth 8, (offset &&& 0xFF).setWidth 8, le]

/-- `read_binary(card, pio, offset, le, out, &out_len, &sw)` as the `t`-th APDU: the index of
the next APDU, and the bytes copied to `out` when it returns 1 -/
def readBinary (card : Nat → List Byte → Option (List Byte)) (t : Nat) (offset : BitVec 16)
    (le : Byte) : Nat × Option (List Byte) :=
  match transmit maxApdu (card t (readBinaryApdu offset le)) with
  | none => (t + 1, none)
  | some (resp, sw) =>
    if sw &&& 0xFF00 = 0x6C00 then
      let retry := readBinaryApdu offset ((sw &&& 0xFF).setWidth 8)
      match transmit maxApdu (card (t + 1) retry) with
      | none => (t + 2, none)
      | some (resp', sw') => (t + 2, if swOk sw' then some resp' else none)
    else (t + 1, if swOk sw then some resp else none)

/-- `sizeof(tmp)` in the loop -/
def ndefTmpLen : Nat := 256

/-- the variables of the loop, with the index of the next APDU and every
`memcpy(ndef + total, tmp, tmp_len)` so far as `(total, tmp_len)` -/
structure NdefRead where
  offset : BitVec 16
  remaining : BitVec 16
  total : Nat
  ok : Bool
  t : Nat
  copies : List (Nat × Nat)

/-- the loop runs while `ok` holds and `remaining > 0` -/
def NdefRead.running (s : NdefRead) : Bool := s.ok && s.remaining != 0

/-- `uint8_t chunk = remaining > 0xFF ? 0xFF : (uint8_t)remaining;` -/
def ndefChunk (remaining : BitVec 16) : Byte :=
  if 0xFF < remaining then 0xFF else remaining.setWidth 8

/-- one iteration: `read_binary` of `chunk` bytes at `offset` into `tmp`, then the copy and
the updates, or `ok = 0` and `break` -/
def ndefReadStep (card : Nat → List Byte → Option (List Byte)) (s : NdefRead) : NdefRead :=
  let r := readBinary card s.t s.offset (ndefChunk s.remaining)
  match r.2 with
  | none => { s with ok := false, t := r.1 }
  | some tmp =>
    { offset := s.offset + BitVec.ofNat 16 tmp.length,
      remaining := s.remaining - BitVec.ofNat 16 tmp.length,
      total := s.total + tmp.length, ok := true, t := r.1,
      copies := s.copies ++ [(s.total, tmp.length)] }

/-- at most `fuel` iterations of `while (remaining > 0)` -/
def ndefReadLoop (card : Nat → List Byte → Option (List Byte)) : Nat → NdefRead → NdefRead
  | 0, s => s
  | fuel + 1, s => if s.running then ndefReadLoop card fuel (ndefReadStep card s) else s

/-- `nlen = (nlen_bytes[0] << 8) | nlen_bytes[1]` -/
def nlenOf (nb : List Byte) : BitVec 16 :=
  ((nb.getD 0 0).setWidth 16 <<< 8) ||| (nb.getD 1 0).setWidth 16

/-- the loop's start: `offset = 2`, `remaining = nlen`, `total = 0`, `ok = 1` -/
def NdefRead.init (nlen : BitVec 16) (t : Nat) : NdefRead := ⟨2, nlen, 0, true, t, []⟩

/-- the read from `NLEN` on, APDU `0` being the `NLEN` read and the loop given `fuel`
iterations: the bytes copied to `nlen_bytes` and the loop's state, or `none` when
`READ NLEN` fails -/
def ndefRead (card : Nat → List Byte → Option (List Byte)) (fuel : Nat) :
    Option (List Byte × NdefRead) :=
  match readBinary card 0 0 2 with
  | (_, none) => none
  | (t, some nb) =>
    if nb.length < 2 then none
    else some (nb, ndefReadLoop card fuel (NdefRead.init (nlenOf nb) t))

end Ntag424

import Ntag424.Spec.Bytes

/-! Keys as text: `parse_hex_key`, which reads the key argument, the key files and
`NTAG_RNDA`; `trim_whitespace` and the `fgets` loop of `read_key_file`; and
`write_key_hex_file`, which writes a drawn key as 32 uppercase hexadecimal digits and a
newline.

`parse_hex_key` checks only the length. Each byte is `sscanf(hex + 2 * i, "%2x", &val)`, and
`%2x` skips white space first (which does not count against the width), takes a sign, and
reads `0x` as a base prefix, so the byte is not always the two characters at `2 * i`. The C
library calls are modelled as glibc and the BSD libc both read these inputs.

A C string is the list of its bytes up to the terminating NUL; a file is the list of its
bytes. Two paths can name one file, and a write the device cannot take in full is cut short
with no error that `write_key_hex_file` sees. -/

namespace Ntag424

/-- `isspace` in the C locale: space, `\t`, `\n`, `\v`, `\f` and `\r` -/
def isSpace (c : Byte) : Bool := c == 0x20 || (0x09 ≤ c.toNat && c.toNat ≤ 0x0D)

/-- the value of a hexadecimal digit, in either case -/
def hexValue (c : Byte) : Option Nat :=
  if 0x30 ≤ c.toNat ∧ c.toNat ≤ 0x39 then some (c.toNat - 0x30)
  else if 0x41 ≤ c.toNat ∧ c.toNat ≤ 0x46 then some (c.toNat - 0x37)
  else if 0x61 ≤ c.toNat ∧ c.toNat ≤ 0x66 then some (c.toNat - 0x57)
  else none

/-- the values of at most `w` hexadecimal digits at the front of `s` -/
def hexDigits : Nat → List Byte → List Nat
  | 0, _ => []
  | _ + 1, [] => []
  | w + 1, c :: s =>
    match hexValue c with
    | some d => d :: hexDigits w s
    | none => []

/-- the number the digits spell, most significant first; `none` when there are none -/
def hexNumber (ds : List Nat) : Option Nat :=
  if ds = [] then none else some (ds.foldl (fun v d => 16 * v + d) 0)

/-- `sscanf(s, "%2x", &val) == 1` and the `unsigned int` it stores. White space is skipped;
at the end of the string `sscanf` returns `EOF`. A sign takes one of the two characters and
a `-` negates the value. A leading `0x` or `0X` fills the width as a prefix and reads as 0.
Otherwise up to two hexadecimal digits are read, and none is a matching failure. -/
def scanHex2 (s : List Byte) : Option (BitVec 32) :=
  let t := s.dropWhile isSpace
  if t = [] then none
  else if t.head? = some 0x2D then (hexNumber (hexDigits 1 t.tail)).map fun v => -.ofNat 32 v
  else if t.head? = some 0x2B then (hexNumber (hexDigits 1 t.tail)).map (.ofNat 32)
  else if t.take 2 = [0x30, 0x78] ∨ t.take 2 = [0x30, 0x58] then some 0
  else (hexNumber (hexDigits 2 t)).map (.ofNat 32)

/-- the loop of `parse_hex_key` from `hex + 2 * i` on, for the `k` bytes left: each byte is
`(uint8_t)val`, and the loop returns 0 at the first `sscanf` that does not return 1 -/
def parseHexBytes : Nat → List Byte → Option (List Byte)
  | 0, _ => some []
  | k + 1, s => do
    let v ← scanHex2 s
    let rest ← parseHexBytes k (s.drop 2)
    pure (v.setWidth 8 :: rest)

/-- `parse_hex_key(hex, key)`: `none` is the return value 0. `key` is only used after a
return of 1. -/
def parseHexKey (hex : List Byte) : Option Block :=
  if hex.length ≠ 32 then none else (parseHexBytes 16 hex).map Bytes.ofList

/-- the first loop of `trim_whitespace`: `len` once the trailing white space is cut off -/
def trimLen (s : List Byte) : Nat → Nat
  | 0 => 0
  | len + 1 => if isSpace (s.getD len 0) then trimLen s len else len + 1

/-- the second loop: `start`, the number of leading white-space bytes -/
def trimStart : List Byte → Nat
  | [] => 0
  | c :: s => if isSpace c then trimStart s + 1 else 0

/-- `trim_whitespace(s)`: the string cut at `len`, then moved down by `start` -/
def trimWhitespace (s : List Byte) : List Byte :=
  let t := s.take (trimLen s s.length)
  t.drop (trimStart t)

/-- one `fgets` into a buffer of `n + 1` bytes: at most `n` bytes, up to and including the
first newline, and what is left of the file -/
def fgetsLine : Nat → List Byte → List Byte × List Byte
  | 0, rest => ([], rest)
  | _ + 1, [] => ([], [])
  | n + 1, c :: rest =>
    if c = 0x0A then ([c], rest) else
    let r := fgetsLine n rest
    (c :: r.1, r.2)

theorem fgetsLine_snd_length_lt (n : Nat) (c : Byte) (rest : List Byte) :
    (fgetsLine (n + 1) (c :: rest)).2.length < (c :: rest).length := by
  induction n generalizing c rest with
  | zero => unfold fgetsLine; split <;> simp [fgetsLine]
  | succ n ih =>
    unfold fgetsLine
    split
    · simp
    · cases rest with
      | nil => simp [fgetsLine]
      | cons d rest => exact Nat.lt_succ_of_lt (ih d rest)

/-- the lines `while (fgets(line, sizeof(line), f))` reads, `line` of 256 bytes -/
def fgetsLines (rest : List Byte) : List (List Byte) :=
  match rest with
  | [] => []
  | c :: cs => (fgetsLine 255 (c :: cs)).1 :: fgetsLines (fgetsLine 255 (c :: cs)).2
termination_by rest.length
decreasing_by exact fgetsLine_snd_length_lt 254 _ _

/-- the loop of `read_key_file` over the lines: a line that trims to nothing is skipped, and
the first other line is the key, or the failure, as `parse_hex_key` reads it. A line is the
C string up to the first NUL that `fgets` copied. -/
def readKeyLines : List (List Byte) → Option Block
  | [] => none
  | l :: ls =>
    let t := trimWhitespace (l.takeWhile (· ≠ 0))
    if t = [] then readKeyLines ls else parseHexKey t

/-- the file system as `main` uses it. A path names a file, given by its canonical path, so
that `key.hex`, `./key.hex` and a link to it name one file; `data` holds each file's bytes,
`none` where `fopen(path, "r")` fails; `writable` says whether `fopen(path, "w")` succeeds;
and the device takes `room` more bytes. -/
structure Files where
  file : List Byte → List Byte
  data : List Byte → Option (List Byte)
  writable : List Byte → Bool
  room : Nat

/-- what `fopen(path, "r")` then reads -/
def Files.read (fs : Files) (path : List Byte) : Option (List Byte) := fs.data (fs.file path)

/-- `read_key_file(path, key)` -/
def readKeyFile (fs : Files) (path : List Byte) : Option Block :=
  (fs.read path).bind fun text => readKeyLines (fgetsLines text)

/-- the digit `"%X"` prints for `n < 16` -/
def hexDigitChar (n : Nat) : Byte :=
  if n < 10 then .ofNat 8 (0x30 + n) else .ofNat 8 (0x37 + n)

/-- `"%02X"` of one byte -/
def hexByte (b : Byte) : List Byte :=
  [hexDigitChar (b.toNat / 16), hexDigitChar (b.toNat % 16)]

/-- what `write_key_hex_file` writes: the sixteen bytes in `%02X`, then a newline -/
def keyHexText (key : Block) : List Byte := key.toList.flatMap hexByte ++ [0x0A]

/-- `write_key_hex_file(path, key)`: `none` when `fopen` fails. Else `fopen` empties the file,
which frees its bytes, and `fprintf` and `fclose` put down as much of the key's text as the
device takes. Their results are not checked, so the call succeeds whatever lands. -/
def writeKeyHexFile (fs : Files) (path : List Byte) (key : Block) : Option Files :=
  if fs.writable path then
    let free := fs.room + ((fs.read path).getD []).length
    some { fs with
      data := Function.update fs.data (fs.file path) (some ((keyHexText key).take free))
      room := free - (keyHexText key).length }
  else none

/-- the decimal digits `"%u"` prints -/
def decimalText (n : Nat) : List Byte := (Nat.toDigits 10 n).map fun c => .ofNat 8 c.toNat

/-- `snprintf(key_out_buf, sizeof(key_out_buf), "ntag424_key%u<suffix>", key_no)`; the
result is far below the 64 bytes of `key_out_buf` -/
def defaultKeyPath (keyNo : Byte) (suffix : String) : List Byte :=
  ascii "ntag424_key" ++ decimalText keyNo.toNat ++ ascii suffix

/-- the paths `main` takes from `--provision-key`, `--key-out`, `--old-key`,
`--rotate-new-key` and `--new-key-out` -/
structure KeyPaths where
  provisionKey : Option (List Byte)
  keyOut : Option (List Byte)
  rotateOldKey : Option (List Byte)
  rotateNewKeyIn : Option (List Byte)
  rotateNewKeyOut : Option (List Byte)

/-- the new key of the `do_provision` block: read from `--provision-key`, or `drawn` by
`random_bytes` and written to `--key-out`, by default `ntag424_key<new_key_no>.hex`; `none`
where the block jumps to `cleanup` -/
def provisionKeyOf (fs : Files) (p : KeyPaths) (newKeyNo : Byte) (drawn : Block) :
    Option Block × Files :=
  match p.provisionKey with
  | some path => (readKeyFile fs path, fs)
  | none =>
    match writeKeyHexFile fs (p.keyOut.getD (defaultKeyPath newKeyNo ".hex")) drawn with
    | some fs' => (some drawn, fs')
    | none => (none, fs)

/-- the old and new keys of the `do_rotate_key` block: the old key from `--old-key`, which
is required, then the new key from `--rotate-new-key`, or `drawn` and written to
`--new-key-out`, by default `ntag424_key<rotate_key_no>_new.hex` -/
def rotateKeysOf (fs : Files) (p : KeyPaths) (rotateKeyNo : Byte) (drawn : Block) :
    Option Block × Option Block × Files :=
  match p.rotateOldKey.bind (readKeyFile fs) with
  | none => (none, none, fs)
  | some old =>
    match p.rotateNewKeyIn with
    | some path => (some old, readKeyFile fs path, fs)
    | none =>
      match writeKeyHexFile fs (p.rotateNewKeyOut.getD (defaultKeyPath rotateKeyNo "_new.hex"))
          drawn with
      | some fs' => (some old, some drawn, fs')
      | none => (some old, none, fs)

/-- the `RndA` of `authenticate_ev2_first`: `NTAG_RNDA` when it is 32 bytes long and
`parse_hex_key` reads it, else `drawn` by `random_bytes` -/
def rndAOf (env : Option (List Byte)) (drawn : Block) : Block :=
  match env with
  | some hex => if hex.length = 32 then (parseHexKey hex).getD drawn else drawn
  | none => drawn

end Ntag424

import Ntag424.Spec.Main

/-! The arguments of `main`, read before it connects to a reader: up to four positional
arguments (the reader index, the key in hexadecimal, `key_no` and `counter_file_no`), each
taken while the next argument does not start with `-`, then the options. An unknown argument,
or one that needs a value and comes last, ends `main` with exit code 2, as do a key that
`parse_hex_key` refuses and `--provision` together with `--rotate-key`.

The numbers go through `strtoul(s, NULL, 0)` and a cast to `uint8_t`. `strtoul` is modelled
as glibc and the BSD libc both compute it. -/

namespace Ntag424

/-- the value of a digit in base `base`: `0`-`9`, then `a`-`z` or `A`-`Z` from 10 -/
def digitValue (base : Nat) (c : Byte) : Option Nat :=
  let v := if 0x30 ≤ c.toNat ∧ c.toNat ≤ 0x39 then c.toNat - 0x30
    else if 0x61 ≤ c.toNat ∧ c.toNat ≤ 0x7A then c.toNat - 0x57
    else if 0x41 ≤ c.toNat ∧ c.toNat ≤ 0x5A then c.toNat - 0x37
    else 36
  if v < base then some v else none

/-- `acc` followed by the longest run of base-`base` digits at the front of `s` -/
def digitsValue (base : Nat) : Nat → List Byte → Nat
  | acc, [] => acc
  | acc, c :: s =>
    match digitValue base c with
    | some d => digitsValue base (base * acc + d) s
    | none => acc

/-- `strtoul(s, NULL, 0)`: white space skipped, a sign, then the base from the prefix (`0x`
or `0X` hexadecimal, a leading `0` octal, else decimal) and the longest run of digits of that
base. The value is `ULONG_MAX` when it does not fit 64 bits, negated for a `-` otherwise, and
0 when there are no digits. -/
def strtoul0 (s : List Byte) : BitVec 64 :=
  let t := s.dropWhile isSpace
  let neg := t.head? = some 0x2D
  let t := if t.head? = some 0x2D ∨ t.head? = some 0x2B then t.tail else t
  let v := if t.take 2 = [0x30, 0x78] ∨ t.take 2 = [0x30, 0x58] then digitsValue 16 0 (t.drop 2)
    else if t.head? = some 0x30 then digitsValue 8 0 t
    else digitsValue 10 0 t
  if 2 ^ 64 ≤ v then .allOnes 64 else if neg then -.ofNat 64 v else .ofNat 64 v

/-- `(uint8_t)strtoul(s, NULL, 0)` -/
def byteArg (s : CString) : Byte := (strtoul0 s.bytes).setWidth 8

/-- the variables `main`'s argument loop sets -/
structure CliOptions where
  key : Block
  keyNo : Byte
  counterFileNo : Byte
  doProvision : Bool
  newKeyNo : Byte
  keyOutPath : Option (List Byte)
  provisionKeyPath : Option (List Byte)
  doSdmSetup : Bool
  sdmKeyNo : Byte
  sdmBaseUrl : CString
  doRotateKey : Bool
  rotateKeyNo : Byte
  rotateOldKeyPath : Option (List Byte)
  rotateNewKeyInPath : Option (List Byte)
  rotateNewKeyPath : Option (List Byte)

/-- their initial values -/
def cliDefaults : CliOptions where
  key := 0
  keyNo := 0x00
  counterFileNo := 0x02
  doProvision := false
  newKeyNo := 0x01
  keyOutPath := none
  provisionKeyPath := none
  doSdmSetup := false
  sdmKeyNo := 0x01
  sdmBaseUrl := ⟨ascii "https://example.com/tap", by simp [ascii]⟩
  doRotateKey := false
  rotateKeyNo := 0x01
  rotateOldKeyPath := none
  rotateNewKeyInPath := none
  rotateNewKeyPath := none

/-- the next argument, when there is one and it does not start with `-` -/
def nextPositional : List CString → Option (CString × List CString)
  | a :: rest => if a.bytes.head? = some 0x2D then none else some (a, rest)
  | [] => none

/-- `strcmp(argv[argi], flag) == 0 && argi + 1 < argc`: the argument after the flag -/
def flagValue (a : CString) (flag : String) (next : Option CString) : Option CString :=
  if a.bytes = ascii flag then next else none

/-- one pass of the option loop on `a`, `next` the argument after it if there is one: the
variables after it and whether it took `next` as its value; `none` for an unknown argument -/
def cliFlag (o : CliOptions) (a : CString) (next : Option CString) :
    Option (CliOptions × Bool) :=
  if a.bytes = ascii "--provision" then some ({ o with doProvision := true }, false)
  else if let some v := flagValue a "--provision-key" next then
    some ({ o with provisionKeyPath := some v.bytes }, true)
  else if let some v := flagValue a "--new-keyno" next then
    some ({ o with newKeyNo := byteArg v }, true)
  else if let some v := flagValue a "--key-out" next then
    some ({ o with keyOutPath := some v.bytes }, true)
  else if a.bytes = ascii "--rotate-key" then some ({ o with doRotateKey := true }, false)
  else if let some v := flagValue a "--rotate-keyno" next then
    some ({ o with rotateKeyNo := byteArg v }, true)
  else if let some v := flagValue a "--old-key" next then
    some ({ o with rotateOldKeyPath := some v.bytes }, true)
  else if let some v := flagValue a "--rotate-new-key" next then
    some ({ o with rotateNewKeyInPath := some v.bytes }, true)
  else if let some v := flagValue a "--new-key-out" next then
    some ({ o with rotateNewKeyPath := some v.bytes }, true)
  else if a.bytes = ascii "--sdm-setup" then some ({ o with doSdmSetup := true }, false)
  else if let some v := flagValue a "--sdm-url" next then
    some ({ o with sdmBaseUrl := v }, true)
  else if let some v := flagValue a "--sdm-keyno" next then
    some ({ o with sdmKeyNo := byteArg v }, true)
  else none

/-- the option loop `for (; argi < argc; argi++)`: `none` where it exits with 2 -/
def cliFlags (o : CliOptions) : List CString → Option CliOptions
  | [] => some o
  | [a] => (cliFlag o a none).map Prod.fst
  | a :: tl@(v :: rest) =>
    match cliFlag o a (some v) with
    | none => none
    | some (o', true) => cliFlags o' rest
    | some (o', false) => cliFlags o' tl

/-- the options the card phase reads, once `--provision` and `--rotate-key` are known not to
come together -/
def CliOptions.toMainOptions (o : CliOptions)
    (h : ¬(o.doProvision = true ∧ o.doRotateKey = true)) : MainOptions :=
  ⟨o.key, o.keyNo, o.counterFileNo, o.doProvision, o.newKeyNo, o.doRotateKey, o.rotateKeyNo,
    o.doSdmSetup, o.sdmKeyNo, o.sdmBaseUrl, h⟩

/-- the key-file paths -/
def CliOptions.keyPaths (o : CliOptions) : KeyPaths :=
  ⟨o.provisionKeyPath, o.keyOutPath, o.rotateOldKeyPath, o.rotateNewKeyInPath,
    o.rotateNewKeyPath⟩

/-- the positional arguments after the reader index, whose value only picks the reader: the
key, `key_no` and `counter_file_no`, and the arguments left; `none` where `parse_hex_key`
refuses the key -/
def cliPositional (args : List CString) : Option (CliOptions × List CString) := do
  let args := match nextPositional args with
    | some (_, rest) => rest
    | none => args
  let (key, args) ← match nextPositional args with
    | some (a, rest) => (parseHexKey a.bytes).map fun k => (k, rest)
    | none => some (0, args)
  let (keyNo, args) := match nextPositional args with
    | some (a, rest) => (byteArg a, rest)
    | none => (0x00, args)
  let (counterFileNo, args) := match nextPositional args with
    | some (a, rest) => (byteArg a, rest)
    | none => (0x02, args)
  pure ({ cliDefaults with key := key, keyNo := keyNo, counterFileNo := counterFileNo }, args)

/-- what `main` makes of `argv[1..]` before it connects: the options and the key-file paths,
or the exit code -/
def parseArgs (args : List CString) : Except Nat (MainOptions × KeyPaths) :=
  match cliPositional args with
  | none => .error 2
  | some (o, rest) =>
    match cliFlags o rest with
    | none => .error 2
    | some o =>
      if h : o.doProvision = true ∧ o.doRotateKey = true then .error 2
      else .ok (o.toMainOptions h, o.keyPaths)

end Ntag424

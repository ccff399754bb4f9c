import Ntag424.Spec.Bytes

/-! `build_sdm_ndef`, the NDEF template for Secure Dynamic Messaging. The base URL gets the
`?uid=…&ctr=…&mac=…` placeholders appended. The result goes into one short NDEF URI record
behind the two-byte `NLEN`, with the longest known URI prefix replaced by its code. The
placeholder offsets are then found by scanning the finished buffer with `find_substr`. -/

namespace Ntag424

/-- a C string: its bytes, none of them the terminating NUL -/
structure CString where
  bytes : List Byte
  no_nul : ∀ c ∈ bytes, c ≠ 0

/-- `SDM_UID_LEN_ASCII` -/
def sdmUidLenAscii : Nat := 14

/-- `SDM_CTR_LEN_ASCII` -/
def sdmCtrLenAscii : Nat := 6

/-- `SDM_MAC_LEN_ASCII` -/
def sdmMacLenAscii : Nat := 16

/-- `find_substr(buf, len, needle, &pos)` with `len = buf.length`: the first `i` with
`buf[i..i+|needle|) = needle` -/
def findSubstr (buf needle : List Byte) : Option Nat :=
  if needle.length = 0 ∨ needle.length > buf.length then none
  else (List.range (buf.length - needle.length + 1)).find?
    fun i => (buf.drop i).take needle.length = needle

/-- `prefixes[]`, in the order the loop tries them -/
def uriPrefixes : List (List Byte × Byte) :=
  [(ascii "https://www.", 0x02), (ascii "http://www.", 0x01), (ascii "https://", 0x04),
    (ascii "http://", 0x03)]

/-- the prefix loop: the code of the first entry that `strncmp` finds at the start of `url`,
and its length; `0x00` and nothing stripped when none is -/
def uriPrefixOf (url : List Byte) : Byte × Nat :=
  match uriPrefixes.find? fun e => e.1.isPrefixOf url with
  | some e => (e.2, e.1.length)
  | none => (0x00, 0)

/-- the text `snprintf` appends to the base URL -/
def sdmUrlSuffix : List Byte :=
  ascii "?uid=" ++ ascii "00000000000000" ++ ascii "&ctr=" ++ ascii "000000" ++ ascii "&mac=" ++
    ascii "0000000000000000"

/-- `sdm_ndef_t` as `build_sdm_ndef` fills it on success -/
structure SdmNdef where
  ndef : List Byte
  ndefLen : Nat
  uidOffset : Nat
  ctrOffset : Nat
  macInputOffset : Nat
  macOffset : Nat
  url : List Byte
deriving DecidableEq

/-- `n` bytes from `pos` on are all ASCII `'0'` -/
def zerosAt (buf : List Byte) (pos n : Nat) : Bool :=
  (List.range n).all fun i => buf.getD (pos + i) 0 = 0x30

/-- `build_sdm_ndef(base_url, out)`; `none` is the return value 0. Each early `return 0` is an
`if … then none else`. -/
def buildSdmNdef (baseUrl : CString) : Option SdmNdef :=
  let url := baseUrl.bytes ++ sdmUrlSuffix
  if url.length ≥ 512 then none else
  let (prefixCode, plen) := uriPrefixOf url
  let uri := url.drop plen
  if uri.length > 255 then none else
  let payloadLen := 1 + uri.length
  if payloadLen > 255 then none else
  let recordLen := 4 + payloadLen
  let totalLen := 2 + recordLen
  if totalLen > 256 then none else
  let ndef := [BitVec.ofNat 8 ((recordLen >>> 8) &&& 0xFF), BitVec.ofNat 8 (recordLen &&& 0xFF),
    0xD1, 0x01, BitVec.ofNat 8 payloadLen, 0x55, prefixCode] ++ uri
  (findSubstr ndef (ascii "uid=")).bind fun uidKeyPos =>
  (findSubstr ndef (ascii "ctr=")).bind fun ctrKeyPos =>
  (findSubstr ndef (ascii "mac=")).bind fun macKeyPos =>
  let uidOffset := uidKeyPos + 4
  let ctrOffset := ctrKeyPos + 4
  let macOffset := macKeyPos + 4
  if uidOffset + sdmUidLenAscii > totalLen ∨ ctrOffset + sdmCtrLenAscii > totalLen ∨
    macOffset + sdmMacLenAscii > totalLen then none else
  if !zerosAt ndef uidOffset sdmUidLenAscii then none else
  if !zerosAt ndef ctrOffset sdmCtrLenAscii then none else
  if !zerosAt ndef macOffset sdmMacLenAscii then none else
  some ⟨ndef, totalLen, uidOffset, ctrOffset, uidKeyPos, macOffset, url⟩

end Ntag424

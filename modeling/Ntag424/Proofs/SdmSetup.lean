import Ntag424.Proofs.Ndef
import Ntag424.Proofs.Commands

/-! `main`'s SDM setup, end to end. `main` builds the NDEF template from a base URL, then sends
`change_file_settings_sdm` with the template's offsets in communication mode Full, and then
writes the template with `write_ndef_file_plain`. The card decrypts the settings and stores
them, and `GetFileSettings` answers them in its own layout. `parse_file_settings` finds there
the UID and counter offsets, and the two MAC offsets unless the SDM key is `0x0F`. Each one
points where the card has to mirror and the backend has to check, in the file the write left
on the card: at the UID and counter placeholders, at the `uid=` that starts the MAC input, and
at the MAC placeholder that ends the file. -/

namespace Ntag424

/-- where the offset field `f` has to point in the file content `file`: at the ASCII `'0'`
placeholders the card mirrors the UID, the counter and the MAC into, the MAC ending the file,
and at the `uid=` from which the MAC input runs to the end of the file -/
def sdmTarget (file : List Byte) : SdmField → Nat → Bool
  | .uidOffset, n => n + sdmUidLenAscii ≤ file.length && zerosAt file n sdmUidLenAscii
  | .readCtrOffset, n => n + sdmCtrLenAscii ≤ file.length && zerosAt file n sdmCtrLenAscii
  | .macInputOffset, n => file.drop n == sdmUrlSuffix.drop 1
  | .macOffset, n => n + sdmMacLenAscii == file.length && zerosAt file n sdmMacLenAscii
  | _, _ => false

/-- the builder's offsets hit their targets in the record it builds -/
theorem sdmTarget_sdmNdef (h0 h1 pl code : Byte) {u : List Byte} {m : Nat} (hu : u.length = m) :
    let nd := [h0, h1, 0xD1, 0x01, pl, 0x55, code] ++ (u ++ sdmUrlSuffix)
    sdmTarget nd .uidOffset (12 + m) = true ∧ sdmTarget nd .readCtrOffset (31 + m) = true ∧
      sdmTarget nd .macInputOffset (8 + m) = true ∧ sdmTarget nd .macOffset (42 + m) = true := by
  intro nd
  have hlen : nd.length = 58 + m := by
    simp only [nd, List.length_append, hu, length_sdmUrlSuffix, List.length_cons, List.length_nil]
    omega
  have hz : zerosAt sdmUrlSuffix (1 + 4) 14 = true ∧ zerosAt sdmUrlSuffix (20 + 4) 6 = true ∧
      zerosAt sdmUrlSuffix (31 + 4) 16 = true := by decide
  simp only [sdmTarget, hlen, sdmUidLenAscii, sdmCtrLenAscii, sdmMacLenAscii, Bool.and_eq_true,
    decide_eq_true_eq, beq_iff_eq]
  refine ⟨⟨by omega, ?_⟩, ⟨by omega, ?_⟩, ?_, ⟨by omega, ?_⟩⟩
  · rw [show 12 + m = 7 + m + 1 + 4 by omega, zerosAt_sdmNdef _ _ _ _ hu]; exact hz.1
  · rw [show 31 + m = 7 + m + 20 + 4 by omega, zerosAt_sdmNdef _ _ _ _ hu]; exact hz.2.1
  · rw [show 8 + m = 7 + u.length + 1 by omega, drop_sdmNdef]
  · rw [show 42 + m = 7 + m + 31 + 4 by omega, zerosAt_sdmNdef _ _ _ _ hu]; exact hz.2.2

theorem sdmOffsetFields_main (sdmKeyNo : Byte) (u c mi m : BitVec 32) :
    sdmOffsetFields 0xC1 0x0E sdmKeyNo u c mi m = [(.uidOffset, u), (.readCtrOffset, c)] ++
      if sdmKeyNo ≠ 0x0F then [(.macInputOffset, mi), (.macOffset, m)] else [] := by
  unfold sdmOffsetFields
  rw [if_pos (by decide), if_pos (by decide)]
  rfl

theorem buildSdmNdef_length (b : CString) (hno : NoSdmMarker b.bytes) {r : SdmNdef}
    (hr : buildSdmNdef b = some r) : r.ndef.length = r.ndefLen ∧ r.ndefLen ≤ 256 := by
  obtain ⟨code, p, m, -, hm, h198, rfl⟩ := buildSdmNdef_eq_some b hno hr
  refine ⟨?_, by dsimp only; omega⟩
  simp only [List.length_append, List.length_drop, length_sdmUrlSuffix, List.length_cons,
    List.length_nil]
  omega

theorem parseFileSettings_sdmSetup (b : CString) (hno : NoSdmMarker b.bytes) {r : SdmNdef}
    (hr : buildSdmNdef b = some r) (ar1 ar2 sdmKeyNo ft : Byte) (hkey : sdmKeyNo ≤ 0x0F)
    (fs : BitVec 32) (hfs : fs.toNat < 2 ^ 24) :
    let q := parseFileSettings (settingsAnswer ft fs (changeFileSettingsSdmData 0x00 ar1 ar2 0xC1
      0x0E sdmKeyNo sdmKeyNo (.ofNat 32 r.uidOffset) (.ofNat 32 r.ctrOffset)
      (.ofNat 32 r.macInputOffset) (.ofNat 32 r.macOffset)))
    q.ok = true ∧
      q.fields.map Prod.fst = [.uidOffset, .readCtrOffset] ++
        (if sdmKeyNo ≠ 0x0F then [.macInputOffset, .macOffset] else []) ∧
      ∀ x ∈ q.fields, sdmTarget r.ndef x.1 x.2.toNat = true := by
  obtain ⟨code, p, m, -, hm, h198, rfl⟩ := buildSdmNdef_eq_some b hno hr
  dsimp only
  obtain ⟨hu, hc, hmi, hmm⟩ := sdmTarget_sdmNdef 0 (BitVec.ofNat 8 (56 + m))
    (BitVec.ofNat 8 (52 + m)) code (by rw [List.length_drop]; omega : (b.bytes.drop p).length = m)
  generalize [0, BitVec.ofNat 8 (56 + m), 0xD1, 0x01, BitVec.ofNat 8 (52 + m), 0x55, code] ++
    (b.bytes.drop p ++ sdmUrlSuffix) = nd at hu hc hmi hmm ⊢
  have hlt : ∀ k, k ≤ 256 → (BitVec.ofNat 32 k).toNat = k := fun k hk => by
    rw [BitVec.toNat_ofNat]; omega
  obtain ⟨hok, hfields, -⟩ := parseFileSettings_sdmOffsetFields 0xC1 0x0E sdmKeyNo
    (.ofNat 32 (12 + m)) (.ofNat 32 (31 + m)) (.ofNat 32 (8 + m)) (.ofNat 32 (42 + m)) 0x00 ar1
    ar2 sdmKeyNo ft fs (by decide) (by decide) (by decide) (by decide) hkey hkey
    (by rw [hlt _ (by omega)]; omega) (by rw [hlt _ (by omega)]; omega)
    (by rw [hlt _ (by omega)]; omega) (by rw [hlt _ (by omega)]; omega) hfs
  rw [hfields, sdmOffsetFields_main]
  have ht : ∀ x ∈ [(SdmField.uidOffset, BitVec.ofNat 32 (12 + m)),
      (.readCtrOffset, .ofNat 32 (31 + m)), (.macInputOffset, .ofNat 32 (8 + m)),
      (.macOffset, .ofNat 32 (42 + m))], sdmTarget nd x.1 x.2.toNat = true := by
    simp only [List.forall_mem_cons, hlt _ (by omega : 12 + m ≤ 256),
      hlt _ (by omega : 31 + m ≤ 256), hlt _ (by omega : 8 + m ≤ 256),
      hlt _ (by omega : 42 + m ≤ 256)]
    exact ⟨hu, hc, hmi, hmm, List.forall_mem_nil _⟩
  refine ⟨hok, by split_ifs <;> rfl, fun x hx => ht x ?_⟩
  split_ifs at hx
  · exact hx
  · exact List.mem_append_left _ (List.append_nil _ ▸ hx)

namespace BlockCipher

variable (aes : BlockCipher)

/-- `main`'s SDM setup: the builder, ChangeFileSettings, the card and the NDEF write -/
theorem sdmSetup_spec (b : CString) (hno : NoSdmMarker b.bytes) {r : SdmNdef}
    (hr : buildSdmNdef b = some r) (s : Session) (hauth : s.authenticated = true)
    (fileNo ar1 ar2 sdmKeyNo : Byte) (hkey : sdmKeyNo ≤ 0x0F) (reply : Option (List Byte))
    (replies : Nat → Option (List Byte)) (hwrite : (writeNdefFilePlain r.ndef replies).ok = true)
    (img : Nat → Byte) (ft : Byte) (fs : BitVec 32) (hfs : fs.toNat < 2 ^ 24) :
    let file := (List.range r.ndefLen).map
      (((writeNdefFilePlain r.ndef replies).sent.drop 2).foldl applyUpdateBinary img)
    ∃ enc : List Byte,
      (aes.changeFileSettingsSdm s fileNo 0x00 ar1 ar2 0xC1 0x0E sdmKeyNo sdmKeyNo
          (.ofNat 32 r.uidOffset) (.ofNat 32 r.ctrOffset) (.ofNat 32 r.macInputOffset)
          (.ofNat 32 r.macOffset) reply).apdu =
        some ([0x90, 0x5F, 0x00, 0x00, BitVec.ofNat 8 (1 + enc.length + 8), fileNo] ++ enc ++
          cmacTruncate8 (aes.aesCmac s.kmac (0x5F :: le16 s.cmdCtr ++ s.ti.toList ++ [fileNo] ++
            enc)) ++ [0x00]) ∧
      let answer := settingsAnswer ft fs (aes.cardCmdData s enc)
      getFileSettingsPlain mainFsDataLen (some (answer ++ [0x91, 0x00])) = (some answer, 0x9100) ∧
      let q := parseFileSettings answer
      q.ok = true ∧
      q.fields.map Prod.fst = [.uidOffset, .readCtrOffset] ++
        (if sdmKeyNo ≠ 0x0F then [.macInputOffset, .macOffset] else []) ∧
      ∀ x ∈ q.fields, sdmTarget file x.1 x.2.toNat = true := by
  intro file
  obtain ⟨hlen, h256⟩ := buildSdmNdef_length b hno hr
  have hfile : file = r.ndef := by
    simp only [file]
    rw [← hlen]
    exact writeNdefFilePlain_file _ (by omega) replies hwrite img
  have hlc := length_changeFileSettingsSdmData_le 0xC1 0x0E sdmKeyNo (.ofNat 32 r.uidOffset)
    (.ofNat 32 r.ctrOffset) (.ofNat 32 r.macInputOffset) (.ofNat 32 r.macOffset) 0x00 ar1 ar2
    sdmKeyNo
  obtain ⟨enc, -, hapdu, hcard⟩ := aes.ssmCmdFull_sends hauth 0x5F [fileNo]
    (changeFileSettingsSdmData 0x00 ar1 ar2 0xC1 0x0E sdmKeyNo sdmKeyNo (.ofNat 32 r.uidOffset)
      (.ofNat 32 r.ctrOffset) (.ofNat 32 r.macInputOffset) (.ofNat 32 r.macOffset))
    (by rw [List.length_singleton]; omega) 16 reply
  refine ⟨enc, hapdu, ?_⟩
  rw [hcard, hfile]
  have hans := length_settingsAnswer_le ft fs (changeFileSettingsSdmData 0x00 ar1 ar2 0xC1 0x0E
    sdmKeyNo sdmKeyNo (.ofNat 32 r.uidOffset) (.ofNat 32 r.ctrOffset) (.ofNat 32 r.macInputOffset)
    (.ofNat 32 r.macOffset))
  refine ⟨(getFileSettingsPlain_eq_some _ _ _ _).2 ⟨?_, by decide, by
    rw [mainFsDataLen]; omega⟩, parseFileSettings_sdmSetup b hno hr ar1 ar2 sdmKeyNo ft hkey fs hfs⟩
  rw [transmit_some _ _ _ _ (by rw [maxApdu]; omega), show swOf 0x91 0x00 = 0x9100 by decide]

/-- the SDM setup of `main`'s default URL on file `0x02` with SDM key `0x01` -/
theorem sdmSetup_spec_sdmBaseUrl :
    let r := (buildSdmNdef sdmBaseUrl).get (by decide)
    let s : Session := ⟨0, 0, 0, 0, 0, true⟩
    let replies : Nat → Option (List Byte) := fun _ => some [0x90, 0x00]
    NoSdmMarker sdmBaseUrl.bytes ∧ buildSdmNdef sdmBaseUrl = some r ∧ s.authenticated = true ∧
      (0x01 : Byte) ≤ 0x0F ∧ (writeNdefFilePlain r.ndef replies).ok = true ∧
      (0x100 : BitVec 32).toNat < 2 ^ 24 ∧
    let file := (List.range r.ndefLen).map
      (((writeNdefFilePlain r.ndef replies).sent.drop 2).foldl applyUpdateBinary fun _ => 0)
    ∃ enc : List Byte,
      (ident.changeFileSettingsSdm s 0x02 0x00 0xE0 0xEE 0xC1 0x0E 0x01 0x01
          (.ofNat 32 r.uidOffset) (.ofNat 32 r.ctrOffset) (.ofNat 32 r.macInputOffset)
          (.ofNat 32 r.macOffset) none).apdu =
        some ([0x90, 0x5F, 0x00, 0x00, BitVec.ofNat 8 (1 + enc.length + 8), 0x02] ++ enc ++
          cmacTruncate8 (ident.aesCmac s.kmac (0x5F :: le16 s.cmdCtr ++ s.ti.toList ++ [0x02] ++
            enc)) ++ [0x00]) ∧
      let answer := settingsAnswer 0x00 0x100 (ident.cardCmdData s enc)
      getFileSettingsPlain mainFsDataLen (some (answer ++ [0x91, 0x00])) = (some answer, 0x9100) ∧
      let q := parseFileSettings answer
      q.ok = true ∧
      q.fields.map Prod.fst = [.uidOffset, .readCtrOffset] ++
        (if (0x01 : Byte) ≠ 0x0F then [.macInputOffset, .macOffset] else []) ∧
      ∀ x ∈ q.fields, sdmTarget file x.1 x.2.toNat = true :=
  have hlen : ((buildSdmNdef sdmBaseUrl).get (by decide)).ndef.length ≤ 2 ^ 16 := by decide
  have hwrite := (writeNdefFilePlain_spec _ hlen fun _ => some [0x90, 0x00]).1.2
    fun _ _ => ⟨[], 0x9000, by decide, by decide⟩
  ⟨by decide, (Option.some_get _).symm, rfl, by decide, hwrite, by decide,
    ident.sdmSetup_spec sdmBaseUrl (by decide) (Option.some_get _).symm _ rfl 0x02 0xE0 0xEE 0x01
      (by decide) none _ hwrite (fun _ => 0) 0x00 0x100 (by decide)⟩

end BlockCipher

end Ntag424

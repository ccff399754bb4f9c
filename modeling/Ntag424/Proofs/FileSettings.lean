import Ntag424.Spec.FileSettings
import Mathlib.Tactic.FinCases

/-! The FileSettings builder against the parser. Put in `GetFileSettings` form, the data field
of `change_file_settings_sdm` parses back to the options, access rights and nibbles it was
built from, and the offsets come back in the order they were written, every byte consumed.
That holds exactly when `SDMMetaRead` is not one of the keys `0` to `4`. For those the
parser expects a `PICCDataOffset` that the builder never writes, and it runs out of bytes.
On any input the parser reads only inside the bytes it is given, and it accepts exactly the
answers that hold the fields its table asks for. -/

namespace Ntag424

/-- a byte or-ed in above `k` low bits that hold `x` adds `2 ^ k` times its value -/
theorem toNat_or_setWidth_shiftLeft {w : Nat} (x : BitVec w) (b : Byte) {k : Nat}
    (hx : x.toNat < 2 ^ k) (hk : k + 8 ≤ w) :
    (x ||| b.setWidth w <<< k).toNat = 2 ^ k * b.toNat + x.toNat := by
  have hlt : b.toNat * 2 ^ k < 2 ^ w :=
    calc b.toNat * 2 ^ k < 2 ^ 8 * 2 ^ k := Nat.mul_lt_mul_of_pos_right b.isLt (Nat.two_pow_pos k)
      _ = 2 ^ (8 + k) := (pow_add _ _ _).symm
      _ ≤ 2 ^ w := Nat.pow_le_pow_right (by omega) (by omega)
  have hb : b.toNat < 2 ^ w := lt_of_lt_of_le b.isLt (Nat.pow_le_pow_right (by omega) (by omega))
  rw [BitVec.toNat_or, BitVec.toNat_shiftLeft, BitVec.toNat_setWidth, Nat.mod_eq_of_lt hb,
    Nat.shiftLeft_eq, Nat.mod_eq_of_lt hlt, Nat.or_comm, Nat.mul_comm, ← Nat.mul_add_lt_is_or hx]

theorem toNat_field {w : Nat} (v m : BitVec w) (k j : Nat) (hm : m.toNat = 2 ^ j - 1)
    (hj : j ≤ 8) : (((v >>> k) &&& m).setWidth 8).toNat = v.toNat / 2 ^ k % 2 ^ j := by
  rw [BitVec.toNat_setWidth, BitVec.toNat_and, BitVec.toNat_ushiftRight, hm,
    Nat.and_pow_two_sub_one_eq_mod, Nat.shiftRight_eq_div_pow,
    Nat.mod_eq_of_lt (lt_of_lt_of_le (Nat.mod_lt _ (Nat.two_pow_pos j))
      (Nat.pow_le_pow_right (by omega) hj))]

theorem toNat_byte (v : BitVec 32) (k : Nat) :
    (((v >>> k) &&& 0xFF).setWidth 8).toNat = v.toNat / 2 ^ k % 2 ^ 8 :=
  toNat_field v 0xFF k 8 rfl le_rfl

theorem toNat_readU24Le_writeU24Le (v : BitVec 32) (rest : List Byte) :
    (readU24Le (writeU24Le v ++ rest)).toNat = v.toNat % 2 ^ 24 := by
  have h0 := toNat_byte v 0
  have h1 := toNat_byte v 8
  have h2 := toNat_byte v 16
  rw [BitVec.ushiftRight_zero] at h0
  have hlow : (((v &&& 0xFF).setWidth 8).setWidth 32 |||
      (((v >>> 8) &&& 0xFF).setWidth 8).setWidth 32 <<< 8).toNat =
      2 ^ 8 * (v.toNat / 2 ^ 8 % 2 ^ 8) + v.toNat % 2 ^ 8 := by
    rw [toNat_or_setWidth_shiftLeft _ _ (by rw [BitVec.toNat_setWidth, h0]; omega) (by omega), h1,
      BitVec.toNat_setWidth, h0]; omega
  simp only [readU24Le, writeU24Le, List.cons_append, List.getD_cons_zero, List.getD_cons_succ]
  rw [toNat_or_setWidth_shiftLeft _ _ (by rw [hlow]; omega) (by omega), hlow, h2]
  omega

theorem readU24Le_writeU24Le (v : BitVec 32) (hv : v.toNat < 2 ^ 24) (rest : List Byte) :
    readU24Le (writeU24Le v ++ rest) = v :=
  BitVec.eq_of_toNat_eq ((toNat_readU24Le_writeU24Le v rest).trans (Nat.mod_eq_of_lt hv))

/-- `sdm_ar_lsb | (sdm_ar_msb << 8)` of the two bytes the builder wrote is its `sdm_ar` -/
theorem sdmAr_bytes (v : BitVec 16) :
    ((v &&& 0xFF).setWidth 8).setWidth 16 ||| ((((v >>> 8) &&& 0xFF).setWidth 8).setWidth 16 <<< 8)
      = v := by
  have h0 := toNat_field v 0xFF 0 8 rfl le_rfl
  have h1 := toNat_field v 0xFF 8 8 rfl le_rfl
  rw [BitVec.ushiftRight_zero] at h0
  apply BitVec.eq_of_toNat_eq
  rw [toNat_or_setWidth_shiftLeft _ _ (by rw [BitVec.toNat_setWidth, h0]; omega) le_rfl, h1,
    BitVec.toNat_setWidth, h0]
  have := v.isLt
  omega

/-- the builder's `sdm_ar` -/
def builtSdmAr (m f c : Byte) : BitVec 16 :=
  ((m &&& 0x0F).setWidth 16 <<< 12) ||| ((f &&& 0x0F).setWidth 16 <<< 8) ||| (0x0F <<< 4) |||
    (c &&& 0x0F).setWidth 16

theorem builtSdmAr_nibbles (m f c : Byte) :
    (((builtSdmAr m f c) >>> 12) &&& 0x0F).setWidth 8 = m &&& 0x0F ∧
      (((builtSdmAr m f c) >>> 8) &&& 0x0F).setWidth 8 = f &&& 0x0F ∧
      ((builtSdmAr m f c) &&& 0x0F).setWidth 8 = c &&& 0x0F := by
  refine ⟨?_, ?_, ?_⟩ <;> ext i <;>
    simp only [builtSdmAr, BitVec.getLsbD_or, BitVec.getLsbD_setWidth, BitVec.getLsbD_and,
      BitVec.getLsbD_shiftLeft, BitVec.getLsbD_ushiftRight] <;>
    fin_cases i <;> simp only [Fin.isValue, Fin.val_mk, Nat.reduceAdd, Nat.reduceSub,
    Nat.reduceLT, Nat.reduceLeDiff, decide_True, decide_False, Bool.true_and, Bool.false_and,
    Bool.and_true, Bool.and_false, Bool.or_false, Bool.false_or, Bool.not_true, Bool.not_false,
    BitVec.getLsbD_ofNat, Nat.testBit_to_div_mod, Nat.reducePow, Nat.reduceDiv, Nat.reduceMod,
    Nat.reduceEqDiff, BitVec.ofNat_eq_ofNat, BitVec.natCast_eq_ofNat,
      Nat.reduceShiftLeft]

theorem and_0x0F_of_le (b : Byte) (h : b ≤ 0x0F) : b &&& 0x0F = b := by
  apply BitVec.eq_of_toNat_eq
  rw [BitVec.toNat_and, show (0x0F : Byte).toNat = 2 ^ 4 - 1 from rfl,
    Nat.and_pow_two_sub_one_eq_mod]
  exact Nat.mod_eq_of_lt (Nat.lt_of_le_of_lt (BitVec.le_def.mp h) (by decide))

theorem fileOption_and_0x40 (cm : Byte) : ¬ ((cm &&& 0x03) ||| 0x40) &&& 0x40 = 0 := by
  intro h
  have := congrArg (fun x : Byte => x.getLsbD 6) h
  simp at this

/-- the groups succeed exactly when the bytes from `idx` hold all their fields -/
theorem readGroups_fst (data : List Byte) (idx : Nat) (gs : List (List SdmField))
    (hidx : idx ≤ data.length) :
    (readGroups data idx gs).1 = decide (idx + 3 * gs.flatten.length ≤ data.length) := by
  induction gs generalizing idx with
  | nil =>
    simp only [readGroups, List.flatten_nil, List.length_nil, Nat.mul_zero, Nat.add_zero, hidx,
      decide_True]
  | cons g gs ih =>
    rw [readGroups]
    split
    · show false = _
      rw [eq_comm, decide_eq_false_iff_not, List.flatten_cons, List.length_append]; omega
    · rw [ih _ (by omega)]
      simp only [List.flatten_cons, List.length_append, decide_eq_decide]; omega

theorem readGroups_writes (pre : List Byte) (l : List (SdmField × BitVec 32))
    (hl : ∀ x ∈ l, x.2.toNat < 2 ^ 24) :
    readGroups (pre ++ (l.map fun x => writeU24Le x.2).flatten) pre.length (l.map fun x => [x.1]) =
      (true, l, pre.length + 3 * l.length) := by
  induction l generalizing pre with
  | nil => rfl
  | cons x l ih =>
    have hrest := ih (pre ++ writeU24Le x.2) fun y hy => hl y (List.mem_cons_of_mem _ hy)
    simp only [List.length_append, length_writeU24Le, List.append_assoc] at hrest
    rw [List.map_cons, List.map_cons, List.flatten_cons, readGroups, List.length_singleton,
      Nat.mul_one, if_neg (by simp only [List.length_append, length_writeU24Le]; omega)]
    simp only [List.length_singleton, Nat.mul_one, hrest, List.mapIdx_singleton, Nat.mul_zero,
      Nat.add_zero, List.drop_left, readU24Le_writeU24Le _ (hl x (List.mem_cons_self _ _)),
      List.singleton_append, List.length_cons, Prod.mk.injEq, true_and]
    omega

theorem parseFileSettings_sdm (ft fo ar1 ar2 o lsb msb : Byte) (fs : BitVec 32) (offs : List Byte)
    (hfs : fs.toNat < 2 ^ 24) (hfo : ¬ fo &&& 0x40 = 0) :
    let sdmAr : BitVec 16 := lsb.setWidth 16 ||| (msb.setWidth 16 <<< 8)
    let m := ((sdmAr >>> 12) &&& 0x0F).setWidth 8
    let f := ((sdmAr >>> 8) &&& 0x0F).setWidth 8
    let data := ft :: fo :: ar1 :: ar2 :: writeU24Le fs ++ o :: lsb :: msb :: offs
    parseFileSettings data =
      ⟨(readGroups data 10 (sdmFieldGroups o m f)).1,
        ⟨true, true, o &&& 0x40 ≠ 0, fo, o, m, f, (sdmAr &&& 0x0F).setWidth 8, ar1, ar2, fs⟩, ft,
        (readGroups data 10 (sdmFieldGroups o m f)).2.1,
        (readGroups data 10 (sdmFieldGroups o m f)).2.2⟩ := by
  intro sdmAr m f data
  have hlen : data.length = offs.length + 10 := by simp [data]; omega
  have hsize : readU24Le (data.drop 4) = fs := readU24Le_writeU24Le _ hfs _
  simp only [parseFileSettings, hlen, hsize, show data.getD 0 0 = ft from rfl,
    show data.getD 1 0 = fo from rfl, show data.getD 2 0 = ar1 from rfl,
    show data.getD 3 0 = ar2 from rfl, show data.getD 7 0 = o from rfl,
    show data.getD 8 0 = lsb from rfl, show data.getD 9 0 = msb from rfl,
    show ¬ offs.length + 10 < 7 by omega, show ¬ offs.length + 10 < 7 + 3 by omega, hfo,
    if_false, ne_eq, not_false_eq_true, decide_True, FileSettingsInfo.zero]

section Builder

variable (o sdmMeta sdmFile : Byte) (u c mi m : BitVec 32)

/-- the offset fields `change_file_settings_sdm` writes, in order, under the parser's names -/
def sdmOffsetFields : List (SdmField × BitVec 32) :=
  (if o &&& 0x80 ≠ 0 ∧ sdmMeta = 0x0E then [(.uidOffset, u)] else []) ++
  (if o &&& 0x40 ≠ 0 ∧ sdmMeta = 0x0E then [(.readCtrOffset, c)] else []) ++
  (if sdmFile ≠ 0x0F then [(.macInputOffset, mi), (.macOffset, m)] else [])

theorem sdmOffsetFields_lt (hu : u.toNat < 2 ^ 24) (hc : c.toNat < 2 ^ 24)
    (hmi : mi.toNat < 2 ^ 24) (hm : m.toNat < 2 ^ 24) :
    ∀ x ∈ sdmOffsetFields o sdmMeta sdmFile u c mi m, x.2.toNat < 2 ^ 24 := by
  intro x hx
  simp only [sdmOffsetFields, List.mem_append, List.mem_ite_nil_right, List.mem_singleton,
    List.mem_cons, List.not_mem_nil, or_false] at hx
  rcases hx with (⟨-, rfl⟩ | ⟨-, rfl⟩) | ⟨-, rfl | rfl⟩ <;> assumption

theorem length_sdmOffsetFields_of_ne (hE : sdmMeta ≠ 0x0E) :
    (sdmOffsetFields o sdmMeta sdmFile u c mi m).length = if sdmFile ≠ 0x0F then 2 else 0 := by
  unfold sdmOffsetFields
  simp only [hE, and_false, if_false, List.nil_append]
  split_ifs <;> rfl

theorem changeFileSettingsSdmData_eq (cm ar1 ar2 sdmCtr : Byte) :
    changeFileSettingsSdmData cm ar1 ar2 o sdmMeta sdmFile sdmCtr u c mi m =
      [(cm &&& 0x03) ||| 0x40, ar1, ar2, o, (builtSdmAr sdmMeta sdmFile sdmCtr &&& 0xFF).setWidth 8,
        ((builtSdmAr sdmMeta sdmFile sdmCtr >>> 8) &&& 0xFF).setWidth 8] ++
      ((sdmOffsetFields o sdmMeta sdmFile u c mi m).map fun x => writeU24Le x.2).flatten := by
  simp only [changeFileSettingsSdmData, sdmOffsetFields, List.map_append, List.flatten_append,
    apply_ite (fun l : List (SdmField × BitVec 32) => (l.map fun x => writeU24Le x.2).flatten),
    List.map_cons, List.map_nil, List.flatten_cons, List.flatten_nil, List.append_nil,
    List.append_assoc]
  -- the builder tests for the two MAC offsets twice, the field list once
  by_cases hf : sdmFile = 0x0F <;> simp only [hf, ne_eq, not_true_eq_false, not_false_eq_true,
    if_true, if_false, List.nil_append] <;> rfl

theorem sdmFieldGroups_eq (h10 : o &&& 0x10 = 0) (h20 : o &&& 0x20 = 0) (hmeta : 0x04 < sdmMeta) :
    sdmFieldGroups o sdmMeta sdmFile =
      (sdmOffsetFields o sdmMeta sdmFile u c mi m).map fun x => [x.1] := by
  unfold sdmFieldGroups sdmOffsetFields
  simp only [h10, h20, BitVec.not_le.mpr hmeta, ne_eq, not_true_eq_false, and_false, if_false,
    List.append_nil]
  split_ifs <;> simp

/-- with `SDMMetaRead` a key `0` to `4` the parser expects three bytes more -/
theorem sdmFieldGroups_length_of_le (h10 : o &&& 0x10 = 0) (h20 : o &&& 0x20 = 0)
    (hmeta : sdmMeta ≤ 0x04) :
    (sdmFieldGroups o sdmMeta sdmFile).flatten.length = 1 + if sdmFile ≠ 0x0F then 2 else 0 := by
  have hE : sdmMeta ≠ 0x0E := by rintro rfl; exact absurd hmeta (by decide)
  unfold sdmFieldGroups
  simp only [h10, h20, hmeta, hE, ne_eq, not_true_eq_false, and_false, if_false, if_true,
    List.append_nil, List.nil_append]
  split_ifs <;> rfl

theorem length_flatten_map_writeU24Le (l : List (SdmField × BitVec 32)) :
    (l.map fun x => writeU24Le x.2).flatten.length = 3 * l.length := by
  induction l with
  | nil => rfl
  | cons x l ih => simp only [List.map_cons, List.flatten_cons, List.length_append,
      length_writeU24Le, ih, List.length_cons]; omega

theorem length_changeFileSettingsSdmData_le (cm ar1 ar2 sdmCtr : Byte) :
    (changeFileSettingsSdmData cm ar1 ar2 o sdmMeta sdmFile sdmCtr u c mi m).length ≤ 18 := by
  have h4 : (sdmOffsetFields o sdmMeta sdmFile u c mi m).length ≤ 4 := by
    unfold sdmOffsetFields; split_ifs <;> simp
  rw [changeFileSettingsSdmData_eq, List.length_append, length_flatten_map_writeU24Le]
  exact Nat.add_le_add_left (Nat.mul_le_mul_left 3 h4) 6

/-- the card's `GetFileSettings` answer once `ChangeFileSettings` has set `p`: the file type,
`FileOption ‖ AccessRights`, the file size, then the rest of `p` -/
def settingsAnswer (ft : Byte) (fs : BitVec 32) (p : List Byte) : List Byte :=
  ft :: p.take 3 ++ writeU24Le fs ++ p.drop 3

theorem length_settingsAnswer_le (ft : Byte) (fs : BitVec 32) (p : List Byte) :
    (settingsAnswer ft fs p).length ≤ p.length + 4 := by
  simp only [settingsAnswer, List.length_append, List.length_cons, List.length_take,
    length_writeU24Le, List.length_drop]
  omega

theorem settingsAnswer_changeFileSettingsSdmData (cm ar1 ar2 sdmCtr ft : Byte) (fs : BitVec 32)
    (hmeta : sdmMeta ≤ 0x0F) (hfile : sdmFile ≤ 0x0F) (hctr : sdmCtr ≤ 0x0F)
    (hfs : fs.toNat < 2 ^ 24) :
    let data := settingsAnswer ft fs
      (changeFileSettingsSdmData cm ar1 ar2 o sdmMeta sdmFile sdmCtr u c mi m)
    let rg := readGroups data 10 (sdmFieldGroups o sdmMeta sdmFile)
    ∃ pre : List Byte, pre.length = 10 ∧
      data = pre ++ ((sdmOffsetFields o sdmMeta sdmFile u c mi m).map fun x => writeU24Le x.2).flatten ∧
      parseFileSettings data = ⟨rg.1, ⟨true, true, o &&& 0x40 ≠ 0, (cm &&& 0x03) ||| 0x40, o,
        sdmMeta, sdmFile, sdmCtr, ar1, ar2, fs⟩, ft, rg.2.1, rg.2.2⟩ := by
  intro data rg
  have hdata : data = (ft :: ((cm &&& 0x03) ||| 0x40) :: ar1 :: ar2 :: writeU24Le fs ++
      [o, (builtSdmAr sdmMeta sdmFile sdmCtr &&& 0xFF).setWidth 8,
        ((builtSdmAr sdmMeta sdmFile sdmCtr >>> 8) &&& 0xFF).setWidth 8]) ++
      ((sdmOffsetFields o sdmMeta sdmFile u c mi m).map fun x => writeU24Le x.2).flatten := by
    simp only [data, settingsAnswer, changeFileSettingsSdmData_eq]; rfl
  obtain ⟨hM, hF, hC⟩ := builtSdmAr_nibbles sdmMeta sdmFile sdmCtr
  have h := parseFileSettings_sdm ft ((cm &&& 0x03) ||| 0x40) ar1 ar2 o
    ((builtSdmAr sdmMeta sdmFile sdmCtr &&& 0xFF).setWidth 8)
    (((builtSdmAr sdmMeta sdmFile sdmCtr >>> 8) &&& 0xFF).setWidth 8) fs
    (((sdmOffsetFields o sdmMeta sdmFile u c mi m).map fun x => writeU24Le x.2).flatten) hfs
    (fileOption_and_0x40 cm)
  simp only [sdmAr_bytes, hM, hF, hC, and_0x0F_of_le _ hmeta, and_0x0F_of_le _ hfile,
    and_0x0F_of_le _ hctr] at h
  refine ⟨_, ?_, hdata, ?_⟩
  · rfl
  · rw [show rg = readGroups data 10 (sdmFieldGroups o sdmMeta sdmFile) from rfl, hdata]
    simp only [List.cons_append, List.append_assoc, List.singleton_append, List.nil_append] at h ⊢
    exact h

theorem parseFileSettings_sdmOffsetFields (cm ar1 ar2 sdmCtr ft : Byte) (fs : BitVec 32)
    (h10 : o &&& 0x10 = 0) (h20 : o &&& 0x20 = 0) (hmeta4 : 0x04 < sdmMeta)
    (hmeta : sdmMeta ≤ 0x0F) (hfile : sdmFile ≤ 0x0F) (hctr : sdmCtr ≤ 0x0F)
    (hu : u.toNat < 2 ^ 24) (hc : c.toNat < 2 ^ 24) (hmi : mi.toNat < 2 ^ 24)
    (hm : m.toNat < 2 ^ 24) (hfs : fs.toNat < 2 ^ 24) :
    let data := settingsAnswer ft fs
      (changeFileSettingsSdmData cm ar1 ar2 o sdmMeta sdmFile sdmCtr u c mi m)
    let r := parseFileSettings data
    r.ok = true ∧ r.fields = sdmOffsetFields o sdmMeta sdmFile u c mi m ∧ r.idx = data.length := by
  intro data r
  obtain ⟨pre, hpre, hdata, hr⟩ := settingsAnswer_changeFileSettingsSdmData o sdmMeta sdmFile u c
    mi m cm ar1 ar2 sdmCtr ft fs hmeta hfile hctr hfs
  simp only [r, data]
  rw [hr, hdata,
    sdmFieldGroups_eq o sdmMeta sdmFile u c mi m h10 h20 hmeta4, ← hpre,
    readGroups_writes pre _ (sdmOffsetFields_lt o sdmMeta sdmFile u c mi m hu hc hmi hm)]
  simp only [List.length_append, length_flatten_map_writeU24Le, and_self]

end Builder

theorem parseFileSettings_changeFileSettingsSdmData (cm ar1 ar2 o sdmMeta sdmFile sdmCtr : Byte)
    (u c mi m : BitVec 32) (ft : Byte) (fs : BitVec 32) (h10 : o &&& 0x10 = 0)
    (h20 : o &&& 0x20 = 0) (hmeta : sdmMeta ≤ 0x0F) (hfile : sdmFile ≤ 0x0F) (hctr : sdmCtr ≤ 0x0F)
    (hu : u.toNat < 2 ^ 24) (hc : c.toNat < 2 ^ 24) (hmi : mi.toNat < 2 ^ 24)
    (hm : m.toNat < 2 ^ 24) (hfs : fs.toNat < 2 ^ 24) :
    let p := changeFileSettingsSdmData cm ar1 ar2 o sdmMeta sdmFile sdmCtr u c mi m
    let data := ft :: p.take 3 ++ writeU24Le fs ++ p.drop 3
    let r := parseFileSettings data
    r.info = ⟨true, true, o &&& 0x40 ≠ 0, (cm &&& 0x03) ||| 0x40, o, sdmMeta, sdmFile, sdmCtr,
      ar1, ar2, fs⟩ ∧
    r.fileType = ft ∧ (r.ok = true ↔ 0x04 < sdmMeta) ∧
    (0x04 < sdmMeta →
      r.fields = (if o &&& 0x80 ≠ 0 ∧ sdmMeta = 0x0E then [(.uidOffset, u)] else []) ++
        (if o &&& 0x40 ≠ 0 ∧ sdmMeta = 0x0E then [(.readCtrOffset, c)] else []) ++
        (if sdmFile ≠ 0x0F then [(.macInputOffset, mi), (.macOffset, m)] else []) ∧
      r.idx = data.length) := by
  intro p data r
  obtain ⟨pre, hpre, hdata, hr⟩ := settingsAnswer_changeFileSettingsSdmData o sdmMeta sdmFile u c
    mi m cm ar1 ar2 sdmCtr ft fs hmeta hfile hctr hfs
  have hfields := fun hmeta4 => parseFileSettings_sdmOffsetFields o sdmMeta sdmFile u c mi m cm
    ar1 ar2 sdmCtr ft fs h10 h20 hmeta4 hmeta hfile hctr hu hc hmi hm hfs
  refine ⟨congrArg ParsedFileSettings.info hr, congrArg ParsedFileSettings.fileType hr,
    ⟨fun hok => ?_, fun hmeta4 => (hfields hmeta4).1⟩, fun hmeta4 => (hfields hmeta4).2⟩
  -- with `SDMMetaRead` a key the parser wants a `PICCDataOffset` more than there are bytes
  by_contra hmeta4
  have hE : sdmMeta ≠ 0x0E := by rintro rfl; exact hmeta4 (by decide)
  have hlen := congrArg List.length hdata
  have hok' := (congrArg ParsedFileSettings.ok hr).symm.trans hok
  rw [List.length_append, hpre, length_flatten_map_writeU24Le,
    length_sdmOffsetFields_of_ne o sdmMeta sdmFile u c mi m hE] at hlen
  rw [readGroups_fst _ _ _ (by omega),
    sdmFieldGroups_length_of_le o sdmMeta sdmFile h10 h20 (BitVec.not_lt.mp hmeta4),
    decide_eq_true_eq] at hok'
  split_ifs at hlen hok' <;> omega

/-- the settings `main` writes for SDM key 2 and a 15-byte base URL -/
theorem parseFileSettings_changeFileSettingsSdmData_main :
    (0xC1 : Byte) &&& 0x10 = 0 ∧ (0xC1 : Byte) &&& 0x20 = 0 ∧ (0x0E : Byte) ≤ 0x0F ∧
      (0x02 : Byte) ≤ 0x0F ∧ (0x02 : Byte) ≤ 0x0F ∧ (27 : BitVec 32).toNat < 2 ^ 24 ∧
      (46 : BitVec 32).toNat < 2 ^ 24 ∧ (23 : BitVec 32).toNat < 2 ^ 24 ∧
      (57 : BitVec 32).toNat < 2 ^ 24 ∧ (256 : BitVec 32).toNat < 2 ^ 24 ∧
    let p := changeFileSettingsSdmData 0x00 0xE0 0xEE 0xC1 0x0E 0x02 0x02 27 46 23 57
    let data := 0x00 :: p.take 3 ++ writeU24Le 256 ++ p.drop 3
    let r := parseFileSettings data
    r.info = ⟨true, true, (0xC1 : Byte) &&& 0x40 ≠ 0, ((0x00 : Byte) &&& 0x03) ||| 0x40, 0xC1,
      0x0E, 0x02, 0x02, 0xE0, 0xEE, 256⟩ ∧
    r.fileType = 0x00 ∧ (r.ok = true ↔ (0x04 : Byte) < 0x0E) ∧
    ((0x04 : Byte) < 0x0E →
      r.fields = (if (0xC1 : Byte) &&& 0x80 ≠ 0 ∧ (0x0E : Byte) = 0x0E then [(.uidOffset, 27)]
          else []) ++
        (if (0xC1 : Byte) &&& 0x40 ≠ 0 ∧ (0x0E : Byte) = 0x0E then [(.readCtrOffset, 46)]
          else []) ++
        (if (0x02 : Byte) ≠ 0x0F then [(.macInputOffset, 23), (.macOffset, 57)] else []) ∧
      r.idx = data.length) :=
  ⟨by decide, by decide, by decide, by decide, by decide, by decide, by decide, by decide,
    by decide, by decide,
    parseFileSettings_changeFileSettingsSdmData 0x00 0xE0 0xEE 0xC1 0x0E 0x02 0x02 27 46 23 57 0x00
      256 (by decide) (by decide) (by decide) (by decide) (by decide) (by decide) (by decide)
      (by decide) (by decide) (by decide)⟩

/-- with `SDMMetaRead = 3` the parser looks for a `PICCDataOffset` and runs out of bytes -/
theorem parseFileSettings_changeFileSettingsSdmData_meta3 :
    let p := changeFileSettingsSdmData 0x00 0xE0 0xEE 0xC1 0x03 0x02 0x02 27 46 23 57
    (0xC1 : Byte) &&& 0x10 = 0 ∧ (0xC1 : Byte) &&& 0x20 = 0 ∧ (0x03 : Byte) ≤ 0x0F ∧
      (parseFileSettings (0x00 :: p.take 3 ++ writeU24Le 256 ++ p.drop 3)).ok = false :=
  ⟨by decide, by decide, by decide, by decide⟩

/-! ### What the parser reads and when it accepts

The bounds are modelled by `parseFileSettingsChecked`, whose every read of `data` is checked.
It agrees with the parser on every input, so no read of the C code leaves the answer. The
parser accepts exactly the answers that hold the fields the table asks for. It sets
`info->valid` as soon as the seven fixed bytes are there, before the SDM part is checked. -/

theorem getElem?_eq_some_getD (l : List Byte) {i : Nat} (h : i < l.length) :
    l[i]? = some (l.getD i 0) := by
  rw [List.getElem?_eq_getElem h, List.getD_eq_getElem _ _ h]

theorem readU24Checked_eq (data : List Byte) (i : Nat) (h : i + 3 ≤ data.length) :
    readU24Checked data i = some (readU24Le (data.drop i)) := by
  rw [readU24Checked, getElem?_eq_some_getD data (by omega), Option.some_bind,
    getElem?_eq_some_getD data (by omega), Option.some_bind,
    getElem?_eq_some_getD data (by omega), Option.map_some']
  simp only [readU24Le, List.getD_cons_zero, List.getD_cons_succ]
  simp only [List.getD_eq_getElem?_getD, List.getElem?_drop, Nat.add_zero]

theorem readFieldsChecked_eq (data : List Byte) (g : List SdmField) (idx : Nat)
    (h : idx + 3 * g.length ≤ data.length) :
    readFieldsChecked data idx g =
      some (g.mapIdx fun k f => (f, readU24Le (data.drop (idx + 3 * k)))) := by
  induction g generalizing idx with
  | nil => rfl
  | cons f g ih =>
    rw [List.length_cons] at h
    rw [readFieldsChecked, readU24Checked_eq data idx (by omega), Option.some_bind,
      ih (idx + 3) (by omega), Option.map_some', List.mapIdx_cons]
    simp only [Nat.mul_zero, Nat.add_zero, Nat.mul_add_one, ← Nat.add_assoc,
      Nat.add_right_comm _ 3]

theorem readGroupsChecked_eq (data : List Byte) (idx : Nat) (gs : List (List SdmField)) :
    readGroupsChecked data idx gs = some (readGroups data idx gs) := by
  induction gs generalizing idx with
  | nil => rfl
  | cons g gs ih =>
    rw [readGroupsChecked, readGroups]
    split
    · rfl
    · rw [readFieldsChecked_eq data g idx (by omega), Option.some_bind, ih, Option.map_some']

/-- no read of `parse_file_settings` leaves the `len` bytes it is given -/
theorem parseFileSettingsChecked_eq (data : List Byte) :
    parseFileSettingsChecked data = some (parseFileSettings data) := by
  unfold parseFileSettingsChecked parseFileSettings
  by_cases h7 : data.length < 7
  · rw [if_pos h7, if_pos h7]
  rw [if_neg h7, if_neg h7, getElem?_eq_some_getD data (by omega : 0 < _),
    getElem?_eq_some_getD data (by omega : 1 < _), getElem?_eq_some_getD data (by omega : 2 < _),
    getElem?_eq_some_getD data (by omega : 3 < _), readU24Checked_eq data 4 (by omega)]
  simp only [Option.some_bind]
  split
  · rfl
  by_cases h10 : data.length < 7 + 3
  · rw [if_pos h10, if_pos h10]
  rw [if_neg h10, if_neg h10, getElem?_eq_some_getD data (by omega : 7 < _),
    getElem?_eq_some_getD data (by omega : 8 < _), getElem?_eq_some_getD data (by omega : 9 < _)]
  simp only [Option.some_bind, readGroupsChecked_eq, Option.map_some']

/-- the `u24` fields the table asks for after `SDMAccessRights`: `UIDOffset`,
`SDMReadCtrOffset`, `PICCDataOffset`, `SDMMACInputOffset`, `SDMENCOffset` with `SDMENCLength`,
`SDMMACOffset` and `SDMReadCtrLimit`, each under its condition -/
def sdmFieldCount (o sdmMeta sdmFile : Byte) : Nat :=
  (if o &&& 0x80 ≠ 0 ∧ sdmMeta = 0x0E then 1 else 0) +
  (if o &&& 0x40 ≠ 0 ∧ sdmMeta = 0x0E then 1 else 0) +
  (if sdmMeta ≤ 0x04 then 1 else 0) +
  (if sdmFile ≠ 0x0F then 1 else 0) +
  (if sdmFile ≠ 0x0F ∧ o &&& 0x10 ≠ 0 then 2 else 0) +
  (if sdmFile ≠ 0x0F then 1 else 0) +
  (if o &&& 0x20 ≠ 0 then 1 else 0)

theorem length_flatten_sdmFieldGroups (o sdmMeta sdmFile : Byte) :
    (sdmFieldGroups o sdmMeta sdmFile).flatten.length = sdmFieldCount o sdmMeta sdmFile := by
  simp only [sdmFieldGroups, sdmFieldCount, List.flatten_append, List.length_append,
    apply_ite (fun l : List (List SdmField) => l.flatten.length), List.flatten_cons,
    List.flatten_nil, List.length_cons, List.length_nil, List.append_nil]

theorem sdmAr_meta_file (lsb msb : Byte) :
    let sdmAr : BitVec 16 := lsb.setWidth 16 ||| (msb.setWidth 16 <<< 8)
    ((sdmAr >>> 12) &&& 0x0F).setWidth 8 = msb >>> 4 ∧
      ((sdmAr >>> 8) &&& 0x0F).setWidth 8 = msb &&& 0x0F := by
  intro sdmAr
  have hv : sdmAr.toNat = 2 ^ 8 * msb.toNat + lsb.toNat :=
    toNat_or_setWidth_shiftLeft _ _ (by rw [BitVec.toNat_setWidth]; omega) le_rfl
  have := lsb.isLt
  have := msb.isLt
  constructor <;> apply BitVec.eq_of_toNat_eq
  · rw [toNat_field sdmAr 0x0F 12 4 rfl (by omega), hv, BitVec.toNat_ushiftRight,
      Nat.shiftRight_eq_div_pow]
    omega
  · rw [toNat_field sdmAr 0x0F 8 4 rfl (by omega), hv, BitVec.toNat_and,
      show (0x0F : Byte).toNat = 2 ^ 4 - 1 from rfl, Nat.and_pow_two_sub_one_eq_mod]
    omega

/-- the return value: the fixed bytes, and with SDM on every field the table asks for -/
theorem parseFileSettings_ok_iff (d : List Byte) :
    (parseFileSettings d).ok = true ↔ 7 ≤ d.length ∧ (d.getD 1 0 &&& 0x40 ≠ 0 →
      10 + 3 * sdmFieldCount (d.getD 7 0) (d.getD 9 0 >>> 4) (d.getD 9 0 &&& 0x0F) ≤ d.length) := by
  unfold parseFileSettings
  by_cases h7 : d.length < 7
  · simp only [h7, if_true, Bool.false_eq_true, false_iff]
    omega
  by_cases h40 : d.getD 1 0 &&& 0x40 = 0
  · simp only [h7, h40, if_true, if_false, ne_eq, not_true_eq_false, false_implies, and_true,
      true_iff]
    omega
  by_cases h10 : d.length < 7 + 3
  · simp only [h7, h40, h10, if_true, if_false, Bool.false_eq_true, false_iff, ne_eq,
      not_false_eq_true, true_implies]
    omega
  obtain ⟨hm, hf⟩ := sdmAr_meta_file (d.getD 8 0) (d.getD 9 0)
  simp only [h7, h40, h10, if_false, hm, hf, readGroups_fst _ _ _ (by omega : 10 ≤ d.length),
    length_flatten_sdmFieldGroups, decide_eq_true_eq, ne_eq, not_false_eq_true, true_implies]
  omega

/-- `info->valid` is set once the fixed bytes are read, whatever follows -/
theorem parseFileSettings_valid_iff (d : List Byte) :
    (parseFileSettings d).info.valid = true ↔ 7 ≤ d.length := by
  unfold parseFileSettings
  by_cases h7 : d.length < 7
  · simp only [h7, if_true, FileSettingsInfo.zero, Bool.false_eq_true, false_iff]
    omega
  · simp only [h7, if_false]
    split <;> [skip; split] <;> simp only [true_iff] <;> omega

/-- the parser stays in its input; when it succeeds and when `info` is valid -/
theorem parseFileSettings_bounds_ok_valid (d : List Byte) :
    parseFileSettingsChecked d = some (parseFileSettings d) ∧
    ((parseFileSettings d).ok = true ↔ 7 ≤ d.length ∧ (d.getD 1 0 &&& 0x40 ≠ 0 →
      10 + 3 * sdmFieldCount (d.getD 7 0) (d.getD 9 0 >>> 4) (d.getD 9 0 &&& 0x0F) ≤ d.length)) ∧
    ((parseFileSettings d).info.valid = true ↔ 7 ≤ d.length) :=
  ⟨parseFileSettingsChecked_eq d, parseFileSettings_ok_iff d, parseFileSettings_valid_iff d⟩

/-- SDM on and the SDM part cut off: the parser fails with `info->valid` set -/
theorem parseFileSettings_valid_truncated_sdm :
    let d : List Byte := [0x00, 0x40, 0x00, 0x00, 0x00, 0x00, 0x00]
    (parseFileSettings d).ok = false ∧ (parseFileSettings d).info.valid = true :=
  ⟨by decide, by decide⟩

end Ntag424

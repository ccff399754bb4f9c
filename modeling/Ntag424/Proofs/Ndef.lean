import Ntag424.Spec.Ndef
import Mathlib.Data.List.Infix
import Mathlib.Tactic.IntervalCases

/-! `build_sdm_ndef` on a base URL that holds none of the markers `uid=`, `ctr=`, `mac=`.
The buffer is the seven header bytes, the URL after its stripped prefix, and the
placeholders. The header cannot hold a marker, the URL holds none, and no marker can run
from the URL into the placeholders, which start with `?`. So `find_substr` lands on the
markers the builder appended, at fixed distances from the end of the URL. The build
succeeds exactly when the record fits the 256-byte limit, that is when the URL after its
prefix has at most 198 bytes. -/

namespace Ntag424

/-- `needle` sits in `buf` at position `i` -/
def OccursAt (buf needle : List Byte) (i : Nat) : Prop :=
  i + needle.length ≤ buf.length ∧ (buf.drop i).take needle.length = needle

instance (buf needle : List Byte) (i : Nat) : Decidable (OccursAt buf needle i) :=
  inferInstanceAs (Decidable (_ ∧ _))

/-- `find_substr` returns the first position `needle` sits at -/
theorem findSubstr_eq_some {buf needle : List Byte} {k : Nat} (hne : needle ≠ [])
    (hk : OccursAt buf needle k) (hfirst : ∀ j < k, ¬ OccursAt buf needle j) :
    findSubstr buf needle = some k := by
  have hlen : needle.length ≠ 0 := by simpa using hne
  rw [findSubstr, if_neg (by have := hk.1; omega), List.find?_range_eq_some]
  refine ⟨decide_eq_true hk.2, List.mem_range.2 (by have := hk.1; omega), fun j hj => ?_⟩
  rw [Bool.not_eq_true', decide_eq_false_iff_not]
  exact fun h => hfirst j hj ⟨by have := hk.1; omega, h⟩

theorem OccursAt.getD {buf needle : List Byte} {i : Nat} (h : OccursAt buf needle i) {t : Nat}
    (ht : t < needle.length) : buf.getD (i + t) 0 = needle.getD t 0 := by
  rw [← h.2]
  simp [List.getD_eq_getElem?_getD, List.getElem?_take, ht, List.getElem?_drop]

theorem occursAt_append (pre buf needle : List Byte) (k : Nat) :
    OccursAt (pre ++ buf) needle (pre.length + k) ↔ OccursAt buf needle k := by
  unfold OccursAt
  rw [List.drop_append, List.length_append]
  exact and_congr_left' (by omega)

theorem not_occursAt_append {b s needle : List Byte} (hb : ¬ needle <:+: b)
    (hs : ∀ t, 0 < t → t < needle.length → needle.getD t 0 ≠ s.getD 0 0) {i : Nat}
    (hi : i < b.length) : ¬ OccursAt (b ++ s) needle i := by
  intro h
  by_cases hin : i + needle.length ≤ b.length
  · -- the needle lies inside `b`
    apply hb
    have hn := h.2
    rw [List.drop_append_of_le_length (by omega),
      List.take_append_of_le_length (by simp; omega)] at hn
    rw [← hn]
    exact (List.take_prefix _ _).isInfix.trans (List.drop_suffix _ _).isInfix
  · -- the needle runs from `b` into `s`: its byte at `s`'s start is `s`'s first byte
    have := h.getD (t := b.length - i) (by omega)
    rw [show i + (b.length - i) = b.length + 0 by omega,
      List.getD_append_right _ _ _ _ (by omega), Nat.add_sub_cancel_left] at this
    exact hs _ (by omega) (by omega) this.symm

/-! ### The URI prefix loop -/

/-- the markers `build_sdm_ndef` searches for -/
def sdmMarkers : List (List Byte) := [ascii "uid=", ascii "ctr=", ascii "mac="]

/-- the base URL holds none of the markers -/
def NoSdmMarker (url : List Byte) : Prop := ∀ N ∈ sdmMarkers, ¬ N <:+: url

instance (url : List Byte) : Decidable (NoSdmMarker url) :=
  inferInstanceAs (Decidable (∀ N ∈ sdmMarkers, ¬ N <:+: url))

/-- `(code, p)` is the code and the length of the longest entry of the prefix table that starts
`url`, or `(0x00, 0)` when none does -/
def IsLongestUriPrefix (url : List Byte) (code : Byte) (p : Nat) : Prop :=
  (∃ e ∈ uriPrefixes, e.1 <+: url ∧ code = e.2 ∧ p = e.1.length ∧
      ∀ e' ∈ uriPrefixes, e'.1 <+: url → e'.1.length ≤ e.1.length) ∨
    (code = 0x00 ∧ p = 0 ∧ ∀ e ∈ uriPrefixes, ¬ e.1 <+: url)

instance (url : List Byte) (code : Byte) (p : Nat) : Decidable (IsLongestUriPrefix url code p) :=
  inferInstanceAs (Decidable (_ ∨ _))

/-- codes `0x00`–`0x04` of the NFC Forum URI identifier code table, which a reader puts in
front of the record's URI -/
def nfcUriPrefix (code : Byte) : Option (List Byte) :=
  [[], ascii "http://www.", ascii "https://www.", ascii "http://", ascii "https://"][code.toNat]?

theorem find?_congr_of_mem {α : Type} {p q : α → Bool} :
    ∀ {l : List α}, (∀ x ∈ l, p x = q x) → l.find? p = l.find? q
  | [], _ => rfl
  | x :: xs, h => by
    rw [List.find?_cons, List.find?_cons, h x (List.mem_cons_self _ _),
      find?_congr_of_mem fun y hy => h y (List.mem_cons_of_mem _ hy)]

/-- the first entry `find?` meets in a list sorted by decreasing length is a longest one -/
theorem find?_length_ge {p : List Byte × Byte → Bool} :
    ∀ {l : List (List Byte × Byte)} {e : List Byte × Byte},
      l.Pairwise (fun a b => b.1.length ≤ a.1.length) → l.find? p = some e →
      ∀ e' ∈ l, p e' = true → e'.1.length ≤ e.1.length
  | x :: xs, e, hl, he, e', he', hp => by
    rw [List.pairwise_cons] at hl
    rw [List.find?_cons] at he
    split at he
    · cases he
      rcases List.mem_cons.1 he' with rfl | h
      · exact le_refl _
      · exact hl.1 _ h
    · rcases List.mem_cons.1 he' with rfl | h
      · simp_all
      · exact find?_length_ge hl.2 he e' h hp

theorem uriPrefixes_sorted : uriPrefixes.Pairwise (fun a b => b.1.length ≤ a.1.length) := by
  decide

theorem uriPrefixes_length_inj :
    ∀ e ∈ uriPrefixes, ∀ e' ∈ uriPrefixes, e.1.length = e'.1.length → e = e' := by
  decide

theorem nfcUriPrefix_uriPrefixes : ∀ e ∈ uriPrefixes, nfcUriPrefix e.2 = some e.1 := by
  decide

theorem uriPrefixes_code_le : ∀ e ∈ uriPrefixes, e.2.toNat ≤ 4 := by
  decide

/-- the prefix loop picks the longest entry: the table is sorted by decreasing length -/
theorem isLongestUriPrefix_uriPrefixOf (url : List Byte) :
    IsLongestUriPrefix url (uriPrefixOf url).1 (uriPrefixOf url).2 := by
  unfold uriPrefixOf
  split
  · next e he =>
    have hp := List.find?_some he
    refine Or.inl ⟨e, List.mem_of_find?_eq_some he, List.isPrefixOf_iff_prefix.1 hp,
      rfl, rfl, fun e' he' hp => ?_⟩
    exact find?_length_ge uriPrefixes_sorted he e' he' (List.isPrefixOf_iff_prefix.2 hp)
  · next h =>
    refine Or.inr ⟨rfl, rfl, fun e he hp => ?_⟩
    exact List.find?_eq_none.1 h e he (List.isPrefixOf_iff_prefix.2 hp)

theorem isLongestUriPrefix_of_eq {url : List Byte} {c : Byte} {p : Nat}
    (h : uriPrefixOf url = (c, p)) : IsLongestUriPrefix url c p := by
  have hl := isLongestUriPrefix_uriPrefixOf url
  rwa [h] at hl

theorem IsLongestUriPrefix.unique {url : List Byte} {c c' : Byte} {p p' : Nat}
    (h : IsLongestUriPrefix url c p) (h' : IsLongestUriPrefix url c' p') : c = c' ∧ p = p' := by
  rcases h with ⟨e, he, hpre, rfl, rfl, hmax⟩ | ⟨rfl, rfl, hnone⟩ <;>
    rcases h' with ⟨e', he', hpre', rfl, rfl, hmax'⟩ | ⟨rfl, rfl, hnone'⟩
  · obtain rfl := uriPrefixes_length_inj e he e' he' (le_antisymm (hmax' e he hpre) (hmax e' he' hpre'))
    exact ⟨rfl, rfl⟩
  · exact absurd hpre (hnone' e he)
  · exact absurd hpre' (hnone e' he')
  · exact ⟨rfl, rfl⟩

theorem IsLongestUriPrefix.nfcUriPrefix {url : List Byte} {c : Byte} {p : Nat}
    (h : IsLongestUriPrefix url c p) : p ≤ url.length ∧ nfcUriPrefix c = some (url.take p) := by
  rcases h with ⟨e, he, hpre, rfl, rfl, -⟩ | ⟨rfl, rfl, -⟩
  · rw [← List.prefix_iff_eq_take.1 hpre]
    exact ⟨hpre.length_le, nfcUriPrefix_uriPrefixes e he⟩
  · exact ⟨Nat.zero_le _, rfl⟩

theorem IsLongestUriPrefix.length_le {url : List Byte} {c : Byte} {p : Nat}
    (h : IsLongestUriPrefix url c p) : p ≤ 12 := by
  have : ∀ e ∈ uriPrefixes, e.1.length ≤ 12 := by decide
  rcases h with ⟨e, he, -, -, rfl, -⟩ | ⟨-, rfl, -⟩
  · exact this e he
  · exact Nat.zero_le _

theorem IsLongestUriPrefix.code_le {url : List Byte} {c : Byte} {p : Nat}
    (h : IsLongestUriPrefix url c p) : c.toNat ≤ 4 := by
  rcases h with ⟨e, he, -, rfl, -, -⟩ | ⟨rfl, -, -⟩
  · exact uriPrefixes_code_le e he
  · decide

theorem isPrefixOf_append_cons {c : Byte} {rest : List Byte} :
    ∀ {P : List Byte}, c ∉ P → ∀ b : List Byte, P.isPrefixOf (b ++ c :: rest) = P.isPrefixOf b
  | [], _, _ => by rw [List.isPrefixOf_nil_left, List.isPrefixOf_nil_left]
  | a :: as, hc, [] => by
    rw [List.nil_append, List.isPrefixOf_cons₂, List.isPrefixOf_cons_nil, Bool.and_eq_false_iff,
      beq_eq_false_iff_ne]
    exact Or.inl fun h => hc (h ▸ List.mem_cons_self _ _)
  | a :: as, hc, x :: xs => by
    rw [List.cons_append, List.isPrefixOf_cons₂, List.isPrefixOf_cons₂,
      isPrefixOf_append_cons (fun h => hc (List.mem_cons_of_mem _ h)) xs]

theorem sdmUrlSuffix_eq : sdmUrlSuffix = 0x3F :: sdmUrlSuffix.tail := by decide

theorem uriPrefixOf_append_sdmUrlSuffix (b : List Byte) :
    uriPrefixOf (b ++ sdmUrlSuffix) = uriPrefixOf b := by
  have hq : ∀ e ∈ uriPrefixes, (0x3F : Byte) ∉ e.1 := by decide
  have h : ∀ e ∈ uriPrefixes, e.1.isPrefixOf (b ++ sdmUrlSuffix) = e.1.isPrefixOf b := fun e he => by
    rw [sdmUrlSuffix_eq]
    exact isPrefixOf_append_cons (hq e he) b
  unfold uriPrefixOf
  rw [find?_congr_of_mem h]

/-! ### Where the markers sit in the record -/

theorem sdmMarkers_bytes : ∀ N ∈ sdmMarkers, N.length = 4 ∧ 4 < (N.getD 0 0).toNat ∧
    N.getD 0 0 ≠ 0xD1 ∧ N.getD 0 0 ≠ 0x55 ∧ N.getD 1 0 ≠ 0xD1 ∧ N.getD 1 0 ≠ 0x55 ∧
    N.getD 2 0 ≠ 0xD1 ∧ ∀ t < 4, 0 < t → N.getD t 0 ≠ 0x3F := by
  decide

theorem not_occursAt_header {N : List Byte} (hN : N ∈ sdmMarkers) (h0 h1 pl code : Byte)
    (hcode : code.toNat ≤ 4) (rest : List Byte) {j : Nat} (hj : j < 7) :
    ¬ OccursAt ([h0, h1, 0xD1, 0x01, pl, 0x55, code] ++ rest) N j := by
  obtain ⟨hlen, hc0, hd0, hu0, hd1, hu1, hd2, -⟩ := sdmMarkers_bytes N hN
  have hsmall : ∀ c : Byte, c.toNat ≤ 4 → c ≠ N.getD 0 0 := fun c hc he => by
    rw [he] at hc; omega
  intro h
  have g := fun t (ht : t < 4) => h.getD (t := t) (hlen ▸ ht)
  interval_cases j
  · exact hd2 (g 2 (by omega)).symm
  · exact hd1 (g 1 (by omega)).symm
  · exact hd0 (g 0 (by omega)).symm
  · exact hsmall 0x01 (by decide) (g 0 (by omega))
  · exact hu1 (g 1 (by omega)).symm
  · exact hu0 (g 0 (by omega)).symm
  · exact hsmall code hcode (g 0 (by omega))

theorem sdmUrlSuffix_getD_zero : sdmUrlSuffix.getD 0 0 = 0x3F := by decide

@[simp] theorem length_sdmUrlSuffix : sdmUrlSuffix.length = 51 := by decide

/-- in the record, a marker the URI lacks is first found in the placeholders -/
theorem findSubstr_sdmNdef {N : List Byte} (hN : N ∈ sdmMarkers) (h0 h1 pl code : Byte)
    (hcode : code.toNat ≤ 4) {u : List Byte} (hu : ¬ N <:+: u) {k : Nat}
    (hk : OccursAt sdmUrlSuffix N k) (hfirst : ∀ j < k, ¬ OccursAt sdmUrlSuffix N j) :
    findSubstr ([h0, h1, 0xD1, 0x01, pl, 0x55, code] ++ (u ++ sdmUrlSuffix)) N =
      some (7 + u.length + k) := by
  obtain ⟨hlen, -, -, -, -, -, -, hq⟩ := sdmMarkers_bytes N hN
  have hne : N ≠ [] := fun h => by simp [h] at hlen
  apply findSubstr_eq_some hne
  · rw [Nat.add_assoc]
    exact (occursAt_append _ _ N _).2 ((occursAt_append u _ N k).2 hk)
  · intro j hj
    by_cases h7 : j < 7
    · exact not_occursAt_header hN h0 h1 pl code hcode _ h7
    obtain ⟨i, rfl⟩ : ∃ i, j = 7 + i := ⟨j - 7, by omega⟩
    refine fun h => ?_
    replace h := (occursAt_append _ _ N i).1 h
    by_cases hi : i < u.length
    · refine not_occursAt_append hu (fun t ht ht' => ?_) hi h
      rw [sdmUrlSuffix_getD_zero]
      exact hq t (hlen ▸ ht') ht
    · obtain ⟨k', rfl⟩ : ∃ k', i = u.length + k' := ⟨i - u.length, by omega⟩
      exact hfirst k' (by omega) ((occursAt_append u _ N k').1 h)

theorem zerosAt_append (pre buf : List Byte) (pos n : Nat) :
    zerosAt (pre ++ buf) (pre.length + pos) n = zerosAt buf pos n := by
  unfold zerosAt
  congr 1
  funext i
  rw [Nat.add_assoc, List.getD_append_right _ _ _ _ (Nat.le_add_right _ _), Nat.add_sub_cancel_left]

/-! ### The record -/

theorem not_infix_drop {N b : List Byte} (h : ¬ N <:+: b) (p : Nat) : ¬ N <:+: b.drop p :=
  fun hi => h (hi.trans (List.drop_suffix _ _).isInfix)

theorem zerosAt_sdmNdef (h0 h1 pl code : Byte) {u : List Byte} {m : Nat} (hu : u.length = m)
    (k n : Nat) :
    zerosAt ([h0, h1, 0xD1, 0x01, pl, 0x55, code] ++ (u ++ sdmUrlSuffix)) (7 + m + k + 4) n =
      zerosAt sdmUrlSuffix (k + 4) n := by
  rw [← hu, Nat.add_assoc _ k, Nat.add_assoc]
  exact (zerosAt_append _ _ _ _).trans (zerosAt_append _ _ _ _)

theorem drop_sdmNdef (h0 h1 pl code : Byte) (u : List Byte) (k : Nat) :
    ([h0, h1, 0xD1, 0x01, pl, 0x55, code] ++ (u ++ sdmUrlSuffix)).drop (7 + u.length + k) =
      sdmUrlSuffix.drop k := by
  rw [show 7 = [h0, h1, 0xD1, 0x01, pl, 0x55, code].length from rfl, Nat.add_assoc,
    List.drop_append, List.drop_append]

theorem drop_sdmHeader (h0 h1 pl code : Byte) (rest : List Byte) :
    ([h0, h1, 0xD1, 0x01, pl, 0x55, code] ++ rest).drop 7 = rest := rfl

theorem nlen_bytes {n : Nat} (h : n < 256) : n >>> 8 &&& 255 = 0 ∧ n &&& 255 = n := by
  rw [Nat.shiftRight_eq_div_pow, Nat.div_eq_of_lt (by omega), Nat.zero_and]
  exact ⟨rfl, (Nat.and_pow_two_sub_one_eq_mod n 8).trans (Nat.mod_eq_of_lt h)⟩

/-- what `build_sdm_ndef` builds from a base URL without markers -/
theorem buildSdmNdef_eq (b : CString) (hno : NoSdmMarker b.bytes) {code : Byte} {p m : Nat}
    (hpre : uriPrefixOf b.bytes = (code, p)) (hm : m = b.bytes.length - p) (h198 : m ≤ 198) :
    buildSdmNdef b = some ⟨[0, BitVec.ofNat 8 (56 + m), 0xD1, 0x01, BitVec.ofNat 8 (52 + m), 0x55,
      code] ++ (b.bytes.drop p ++ sdmUrlSuffix), 58 + m, 12 + m, 31 + m, 8 + m, 42 + m,
      b.bytes ++ sdmUrlSuffix⟩ := by
  have hl := isLongestUriPrefix_of_eq hpre
  have hp := hl.nfcUriPrefix.1
  have hp12 := hl.length_le
  have hcode := hl.code_le
  have hlen : (b.bytes.drop p ++ sdmUrlSuffix).length = m + 51 := by
    rw [List.length_append, List.length_drop, length_sdmUrlSuffix]; omega
  have hdl : (b.bytes.drop p).length = m := by rw [List.length_drop]; omega
  have hu := not_infix_drop (hno (ascii "uid=") (by decide)) p
  have hc := not_infix_drop (hno (ascii "ctr=") (by decide)) p
  have hm' := not_infix_drop (hno (ascii "mac=") (by decide)) p
  simp only [buildSdmNdef, uriPrefixOf_append_sdmUrlSuffix, hpre, List.drop_append_of_le_length hp,
    hlen]
  rw [findSubstr_sdmNdef (N := ascii "uid=") (by decide) _ _ _ code hcode hu (k := 1) (by decide)
      (by decide),
    findSubstr_sdmNdef (N := ascii "ctr=") (by decide) _ _ _ code hcode hc (k := 20) (by decide)
      (by decide),
    findSubstr_sdmNdef (N := ascii "mac=") (by decide) _ _ _ code hcode hm' (k := 31) (by decide)
      (by decide), hdl, Option.some_bind, Option.some_bind, Option.some_bind]
  have hzeros : zerosAt sdmUrlSuffix (1 + 4) 14 = true ∧ zerosAt sdmUrlSuffix (20 + 4) 6 = true ∧
      zerosAt sdmUrlSuffix (31 + 4) 16 = true := by decide
  have hnl := nlen_bytes (n := 4 + (1 + (m + 51))) (by omega)
  simp only [List.length_append, length_sdmUrlSuffix, zerosAt_sdmNdef _ _ _ _ hdl, hzeros, hnl,
    sdmUidLenAscii, sdmCtrLenAscii, sdmMacLenAscii, show ¬ b.bytes.length + 51 ≥ 512 by omega,
    show ¬ m + 51 > 255 by omega, show ¬ 1 + (m + 51) > 255 by omega,
    show ¬ 2 + (4 + (1 + (m + 51))) > 256 by omega,
    show ¬ (7 + m + 1 + 4 + 14 > 2 + (4 + (1 + (m + 51))) ∨
      7 + m + 20 + 4 + 6 > 2 + (4 + (1 + (m + 51))) ∨
      7 + m + 31 + 4 + 16 > 2 + (4 + (1 + (m + 51)))) by omega,
    Bool.not_true, Bool.false_eq_true, if_false]
  rw [show 4 + (1 + (m + 51)) = 56 + m by omega, show 1 + (m + 51) = 52 + m by omega]
  simp only [Option.some.injEq, SdmNdef.mk.injEq]
  exact ⟨rfl, by omega, by omega, by omega, by omega, by omega, trivial⟩

/-- a URI of more than 198 bytes after the stripped prefix does not fit the 256-byte file -/
theorem buildSdmNdef_eq_none (b : CString) {code : Byte} {p : Nat}
    (hpre : uriPrefixOf b.bytes = (code, p)) (h : 198 < b.bytes.length - p) :
    buildSdmNdef b = none := by
  simp only [buildSdmNdef, uriPrefixOf_append_sdmUrlSuffix, hpre,
    List.drop_append_of_le_length (isLongestUriPrefix_of_eq hpre).nfcUriPrefix.1,
    List.length_append, List.length_drop, length_sdmUrlSuffix, show 2 + (4 + (1 + (b.bytes.length - p + 51))) > 256 by omega, if_true,
    ite_self]

theorem buildSdmNdef_eq_some (b : CString) (hno : NoSdmMarker b.bytes) {r : SdmNdef}
    (h : buildSdmNdef b = some r) :
    ∃ code p m, uriPrefixOf b.bytes = (code, p) ∧ m = b.bytes.length - p ∧ m ≤ 198 ∧
      r = ⟨[0, BitVec.ofNat 8 (56 + m), 0xD1, 0x01, BitVec.ofNat 8 (52 + m), 0x55, code] ++
        (b.bytes.drop p ++ sdmUrlSuffix), 58 + m, 12 + m, 31 + m, 8 + m, 42 + m,
        b.bytes ++ sdmUrlSuffix⟩ := by
  obtain ⟨⟨code, p⟩, hpre⟩ : ∃ cp, uriPrefixOf b.bytes = cp := ⟨_, rfl⟩
  by_cases h198 : b.bytes.length - p ≤ 198
  · rw [buildSdmNdef_eq b hno hpre rfl h198, Option.some.injEq] at h
    exact ⟨code, p, _, hpre, rfl, h198, h.symm⟩
  · rw [buildSdmNdef_eq_none b hpre (by omega)] at h
    cases h

/-- the offsets point into the placeholders appended after a base URL without markers -/
theorem buildSdmNdef_offsets (b : CString) (hno : NoSdmMarker b.bytes) (m : Nat)
    (hm : m = b.bytes.length - (uriPrefixOf b.bytes).2) (r : SdmNdef)
    (h : buildSdmNdef b = some r) :
    r.macInputOffset = 8 + m ∧ r.uidOffset = 12 + m ∧ r.ctrOffset = 31 + m ∧
      r.macOffset = 42 + m ∧ r.ndefLen = 58 + m ∧
      r.ndef.drop r.macInputOffset = sdmUrlSuffix.drop 1 ∧ r.macInputOffset < r.uidOffset ∧ r.uidOffset + sdmUidLenAscii ≤ r.ctrOffset ∧
      r.ctrOffset + sdmCtrLenAscii ≤ r.macOffset ∧ r.macOffset + sdmMacLenAscii = r.ndefLen := by
  obtain ⟨code, p, m', hpre, hm', -, rfl⟩ := buildSdmNdef_eq_some b hno h
  rw [hpre] at hm
  obtain rfl : m' = m := hm'.trans hm.symm
  refine ⟨rfl, rfl, rfl, rfl, rfl, ?_, ?_⟩
  · rw [show 8 + m' = 7 + (b.bytes.drop p).length + 1 by rw [List.length_drop]; omega,
      drop_sdmNdef]
  · simp only [sdmUidLenAscii, sdmCtrLenAscii, sdmMacLenAscii]
    omega

/-- a C string from bytes without a NUL -/
def CString.ofBytes (bytes : List Byte) (h : (0 : Byte) ∉ bytes) : CString :=
  ⟨bytes, fun _ hc he => h (he ▸ hc)⟩

/-- `sdm_base_url`, the base URL `main` configures -/
def sdmBaseUrl : CString := .ofBytes (ascii "https://example.com/tap") (by decide)

theorem buildSdmNdef_offsets_sdmBaseUrl :
    NoSdmMarker sdmBaseUrl.bytes ∧
      15 = sdmBaseUrl.bytes.length - (uriPrefixOf sdmBaseUrl.bytes).2 ∧ ∃ r, buildSdmNdef sdmBaseUrl = some r ∧
        (r.macInputOffset = 8 + 15 ∧ r.uidOffset = 12 + 15 ∧ r.ctrOffset = 31 + 15 ∧
          r.macOffset = 42 + 15 ∧ r.ndefLen = 58 + 15 ∧
          r.ndef.drop r.macInputOffset = sdmUrlSuffix.drop 1 ∧ r.macInputOffset < r.uidOffset ∧
          r.uidOffset + sdmUidLenAscii ≤ r.ctrOffset ∧ r.ctrOffset + sdmCtrLenAscii ≤ r.macOffset ∧
          r.macOffset + sdmMacLenAscii = r.ndefLen) :=
  have he := buildSdmNdef_eq sdmBaseUrl (by decide)
    (by decide : uriPrefixOf sdmBaseUrl.bytes = (0x04, 8)) rfl (by decide)
  ⟨by decide, by decide, _, he, buildSdmNdef_offsets sdmBaseUrl (by decide) 15 (by decide) _ he⟩

/-- a base URL that holds `uid=` and fourteen `'0'`s: the scan stops there, inside the URL -/
def uidInBaseUrl : CString := .ofBytes (ascii "uid=00000000000000") (by decide)

theorem buildSdmNdef_uidInBaseUrl :
    uidInBaseUrl.bytes.length - (uriPrefixOf uidInBaseUrl.bytes).2 = 18 ∧
      ∃ r, buildSdmNdef uidInBaseUrl = some r ∧ r.macInputOffset = 7 ∧ r.uidOffset = 11 ∧
        r.macInputOffset ≠ 8 + 18 :=
  have h : (buildSdmNdef uidInBaseUrl).map (fun r => (r.macInputOffset, r.uidOffset)) =
      some (7, 11) := by decide
  have ⟨r, hr, hmu⟩ := Option.map_eq_some'.mp h
  have ⟨hmi, hu⟩ := Prod.mk.inj_iff.mp hmu
  ⟨by decide, r, hr, hmi, hu, by omega⟩

theorem uriPrefixOf_eq_of_isLongest {url : List Byte} {c : Byte} {p : Nat}
    (h : IsLongestUriPrefix url c p) : uriPrefixOf url = (c, p) := by
  obtain ⟨hc, hp⟩ := (isLongestUriPrefix_uriPrefixOf url).unique h
  rw [← hc, ← hp]

/-- `build_sdm_ndef` succeeds exactly for short URIs and writes one NDEF URI record -/
theorem buildSdmNdef_record (b : CString) (hno : NoSdmMarker b.bytes) (code : Byte) (p : Nat)
    (hp : IsLongestUriPrefix b.bytes code p) :
    ((buildSdmNdef b).isSome ↔ b.bytes.length - p ≤ 198) ∧
      ∀ r, buildSdmNdef b = some r →
        (r.ndef.getD 0 0).toNat * 256 + (r.ndef.getD 1 0).toNat = r.ndefLen - 2 ∧
        r.ndef.getD 2 0 = 0xD1 ∧ r.ndef.getD 3 0 = 0x01 ∧
        (r.ndef.getD 4 0).toNat = r.ndefLen - 6 ∧ r.ndef.getD 5 0 = 0x55 ∧
        r.ndef.length = r.ndefLen ∧ r.ndef.getD 6 0 = code ∧
        (nfcUriPrefix code).map (· ++ r.ndef.drop 7) = some (b.bytes ++ sdmUrlSuffix) := by
  have hpre := uriPrefixOf_eq_of_isLongest hp
  by_cases h198 : b.bytes.length - p ≤ 198
  · have he := buildSdmNdef_eq b hno hpre rfl h198
    refine ⟨by simp only [he, Option.isSome_some, h198], fun r hr => ?_⟩
    rw [he, Option.some.injEq] at hr
    subst hr
    dsimp only
    have hdl : (b.bytes.drop p).length = b.bytes.length - p := List.length_drop _ _
    obtain ⟨hpl, hnfc⟩ := hp.nfcUriPrefix
    refine ⟨?_, rfl, rfl, ?_, rfl, ?_, rfl, ?_⟩
    · show 0 * 256 + (BitVec.ofNat 8 (56 + _)).toNat = _
      rw [BitVec.toNat_ofNat]; omega
    · show (BitVec.ofNat 8 (52 + _)).toNat = _
      rw [BitVec.toNat_ofNat]; omega
    · simp only [List.length_append, hdl, length_sdmUrlSuffix, List.length_cons, List.length_nil]
      omega
    · rw [hnfc, Option.map_some', drop_sdmHeader, ← List.append_assoc, List.take_append_drop]
  · rw [buildSdmNdef_eq_none b hpre (by omega)]
    exact ⟨by simp only [Option.isSome_none, Bool.false_eq_true, h198], fun r hr => by cases hr⟩

theorem buildSdmNdef_record_sdmBaseUrl :
    NoSdmMarker sdmBaseUrl.bytes ∧ IsLongestUriPrefix sdmBaseUrl.bytes 0x04 8 ∧
      (buildSdmNdef sdmBaseUrl).isSome = true :=
  ⟨by decide, by decide,
    (buildSdmNdef_record sdmBaseUrl (by decide) 0x04 8 (by decide)).1.2 (by decide)⟩

end Ntag424

import Ntag424.Spec.NdefRead

/-! The NDEF read loop of `main` against any card. On a card that answers every read with
`1` to `Le` bytes the loop ends within `NLEN` iterations, copies at most `NLEN` bytes, all of
them when no read fails, and every copy lands inside `ndef` and `tmp`. Nothing in the code
makes a card do so. `read_binary` copies whatever body comes back, up to `MAX_APDU - 2` bytes,
and the loop subtracts its length from the `uint16_t` `remaining`. A card that sends more than
it was asked for overflows both buffers and wraps `remaining`. One that answers `90 00` with
no data keeps the loop going forever. -/

namespace Ntag424

variable {card : Nat → List Byte → Option (List Byte)}

/-! ### `read_binary` -/

theorem readBinary_of_answer (t : Nat) (offset : BitVec 16) (le : Byte) (body : List Byte)
    (sw1 sw2 : Byte) (hc : card t (readBinaryApdu offset le) = some (body ++ [sw1, sw2]))
    (hlen : body.length + 2 ≤ maxApdu) (h6c : sw1 ≠ 0x6C) :
    readBinary card t offset le = (t + 1, if swOk (swOf sw1 sw2) then some body else none) := by
  have hsw : ¬ swOf sw1 sw2 &&& 0xFF00 = 0x6C00 := by
    rw [swOf_and_ff00, show (0x6C00 : BitVec 16) = swOf 0x6C 0 from rfl, swOf_inj]
    exact fun h => h6c h.1
  rw [readBinary, hc, transmit_some _ _ _ _ hlen]
  simp only [hsw, if_false]

/-! ### The loop -/

theorem toNat_ndefChunk (r : BitVec 16) : (ndefChunk r).toNat = min r.toNat 255 := by
  have h255 : (0xFF : BitVec 16).toNat = 255 := rfl
  unfold ndefChunk
  split <;> rename_i h <;> rw [BitVec.lt_def, h255] at h
  · exact (Nat.min_eq_right (by omega)).symm
  · rw [BitVec.toNat_setWidth]
    omega

/-- what one iteration can do: fail and stop, or copy an answer and move on -/
theorem ndefReadStep_cases (s : NdefRead) :
    let r := readBinary card s.t s.offset (ndefChunk s.remaining)
    (r.2 = none ∧ ndefReadStep card s = { s with ok := false, t := r.1 }) ∨
    ∃ tmp, r.2 = some tmp ∧ ndefReadStep card s =
      ⟨s.offset + BitVec.ofNat 16 tmp.length, s.remaining - BitVec.ofNat 16 tmp.length,
        s.total + tmp.length, true, r.1, s.copies ++ [(s.total, tmp.length)]⟩ := by
  unfold ndefReadStep
  dsimp only
  split
  · exact .inl ⟨‹_›, rfl⟩
  · exact .inr ⟨_, ‹_›, rfl⟩

/-- a card whose every answer that `read_binary` takes holds `1` to `Le` bytes, after a
`6Cxx` retry too -/
def ReadsWithinLe (card : Nat → List Byte → Option (List Byte)) : Prop :=
  ∀ t offset le tmp, (readBinary card t offset le).2 = some tmp →
    0 < tmp.length ∧ tmp.length ≤ le.toNat

/-- a card that answers a `READ BINARY` of `Le ≥ 1` bytes with `Le` bytes and `90 00`, and
one of `Le = 0` with `6A 82` -/
def exactLe (_ : Nat) (apdu : List Byte) : Option (List Byte) :=
  if apdu.getD 4 0 = 0 then some [0x6A, 0x82]
  else some (List.replicate (apdu.getD 4 0).toNat 0x00 ++ [0x90, 0x00])

theorem readsWithinLe_exactLe : ReadsWithinLe exactLe := by
  intro t offset le tmp h
  have hle : (readBinaryApdu offset le).getD 4 0 = le := rfl
  by_cases h0 : le = 0
  · rw [readBinary_of_answer _ _ _ [] 0x6A 0x82 (by rw [exactLe, hle, if_pos h0]; rfl)
      (by decide) (by decide)] at h
    cases h
  · rw [readBinary_of_answer _ _ _ _ 0x90 0x00 (by rw [exactLe, hle, if_neg h0])
      (by rw [List.length_replicate]; have := le.isLt; unfold maxApdu; omega) (by decide)] at h
    cases h
    rw [List.length_replicate]
    exact ⟨Nat.pos_of_ne_zero fun h => h0 (BitVec.eq_of_toNat_eq h), le_rfl⟩

/-- what the loop keeps for `NLEN = nlen` on such a card: the bytes copied and the bytes still
wanted make up `nlen`, and every copy lands inside `ndef` and `tmp` -/
structure NdefRead.Inv (nlen : Nat) (s : NdefRead) : Prop where
  total_add : s.total + s.remaining.toNat = nlen
  copies_le : ∀ c ∈ s.copies, c.1 + c.2 ≤ nlen ∧ c.2 ≤ ndefTmpLen

theorem NdefRead.inv_init (nlen : BitVec 16) (t : Nat) : (NdefRead.init nlen t).Inv nlen.toNat :=
  ⟨Nat.zero_add _, fun _ h => absurd h (List.not_mem_nil _)⟩

/-- an iteration keeps the invariant, and when it copies it lowers `remaining` -/
theorem ndefReadStep_inv (h : ReadsWithinLe card) {nlen : Nat} {s : NdefRead}
    (hi : s.Inv nlen) :
    (ndefReadStep card s).Inv nlen ∧ ((ndefReadStep card s).ok = true →
      (ndefReadStep card s).remaining.toNat < s.remaining.toNat) := by
  rcases @ndefReadStep_cases card s with ⟨-, hs⟩ | ⟨tmp, hr, hs⟩ <;> rw [hs]
  · exact ⟨⟨hi.total_add, hi.copies_le⟩, fun h => absurd h Bool.false_ne_true⟩
  · obtain ⟨hpos, hle⟩ := h _ _ _ _ hr
    rw [toNat_ndefChunk] at hle
    have hsub :
        (s.remaining - BitVec.ofNat 16 tmp.length).toNat = s.remaining.toNat - tmp.length := by
      rw [BitVec.toNat_sub, BitVec.toNat_ofNat]
      omega
    refine ⟨⟨?_, fun c hc => ?_⟩, fun _ => ?_⟩
    · show s.total + tmp.length + (s.remaining - BitVec.ofNat 16 tmp.length).toNat = nlen
      rw [hsub]; have := hi.total_add; omega
    · rcases List.mem_append.mp hc with hc | hc
      · exact hi.copies_le c hc
      · rw [List.mem_singleton.mp hc]
        have := hi.total_add
        exact ⟨by omega, by unfold ndefTmpLen; omega⟩
    · show (s.remaining - BitVec.ofNat 16 tmp.length).toNat < _
      rw [hsub]; omega

theorem ndefReadLoop_of_not_running {s : NdefRead} (h : s.running = false) (n : Nat) :
    ndefReadLoop card n s = s := by
  cases n <;> simp only [ndefReadLoop, h, Bool.false_eq_true, if_false]

/-- with fuel for `remaining` iterations the loop ends and keeps the invariant -/
theorem ndefReadLoop_inv (h : ReadsWithinLe card) {nlen : Nat} :
    ∀ (fuel : Nat) (s : NdefRead), s.Inv nlen → s.remaining.toNat ≤ fuel →
      (ndefReadLoop card fuel s).Inv nlen ∧ (ndefReadLoop card fuel s).running = false
  | 0, s, hi, hf => by
    have : s.remaining = 0 :=
      BitVec.eq_of_toNat_eq (by rw [show (0 : BitVec 16).toNat = 0 from rfl]; omega)
    exact ⟨hi, by simp only [ndefReadLoop, NdefRead.running, this, bne_self_eq_false,
      Bool.and_false]⟩
  | fuel + 1, s, hi, hf => by
    rw [ndefReadLoop]
    split
    · obtain ⟨hi', hdec⟩ := ndefReadStep_inv h hi
      by_cases hok : (ndefReadStep card s).ok = true
      · exact ndefReadLoop_inv h fuel _ hi' (by have := hdec hok; omega)
      · have hstop : (ndefReadStep card s).running = false := by simp [NdefRead.running, hok]
        rw [ndefReadLoop_of_not_running hstop]
        exact ⟨hi', hstop⟩
    · exact ⟨hi, Bool.eq_false_iff.mpr ‹_›⟩

/-- on a card answering 1 to `Le` bytes the loop ends and copies within bounds -/
theorem ndefReadLoop_readsWithinLe (h : ReadsWithinLe card) (nlen : BitVec 16) (t : Nat) :
    let s := ndefReadLoop card nlen.toNat (NdefRead.init nlen t)
    s.running = false ∧ s.total ≤ nlen.toNat ∧ (s.ok = true → s.total = nlen.toNat) ∧
      ∀ c ∈ s.copies, c.1 + c.2 ≤ nlen.toNat ∧ c.2 ≤ ndefTmpLen := by
  intro s
  obtain ⟨hi, hstop⟩ : s.Inv nlen.toNat ∧ s.running = false :=
    ndefReadLoop_inv h nlen.toNat _ (NdefRead.inv_init nlen t) le_rfl
  have hsum := hi.total_add
  refine ⟨hstop, by omega, fun hok => ?_, hi.copies_le⟩
  have h0 : s.remaining = 0 := by simpa [NdefRead.running, hok] using hstop
  rw [h0] at hsum
  simpa using hsum

/-- a 300-byte `NLEN` read from a card that answers every `Le` exactly -/
theorem ndefReadLoop_readsWithinLe_exactLe :
    ReadsWithinLe exactLe ∧
      let s := ndefReadLoop exactLe (300 : BitVec 16).toNat (NdefRead.init 300 0)
      s.running = false ∧ s.total ≤ (300 : BitVec 16).toNat ∧
        (s.ok = true → s.total = (300 : BitVec 16).toNat) ∧
        ∀ c ∈ s.copies, c.1 + c.2 ≤ (300 : BitVec 16).toNat ∧ c.2 ≤ ndefTmpLen :=
  ⟨readsWithinLe_exactLe, ndefReadLoop_readsWithinLe readsWithinLe_exactLe 300 0⟩

/-! ### A card that sends too much, then nothing -/

/-- a card answering `90 00` with no data keeps the loop going forever -/
theorem ndefReadLoop_silent {t0 : Nat}
    (hc : ∀ t apdu, t0 ≤ t → card t apdu = some [0x90, 0x00]) :
    ∀ (n : Nat) (s : NdefRead), t0 ≤ s.t → s.running = true →
      let s' := ndefReadLoop card n s
      s'.running = true ∧ s'.remaining = s.remaining ∧ s'.total = s.total ∧
        s.copies <+: s'.copies
  | 0, s, _, hr => ⟨hr, rfl, rfl, List.prefix_refl _⟩
  | n + 1, s, ht, hr => by
    have hrb : readBinary card s.t s.offset (ndefChunk s.remaining) = (s.t + 1, some []) := by
      rw [readBinary_of_answer _ _ _ [] 0x90 0x00 (hc _ _ ht) (by decide) (by decide)]
      rfl
    have hok : s.ok = true := ((Bool.and_eq_true _ _).mp hr).1
    have hs : ndefReadStep card s =
        { s with t := s.t + 1, copies := s.copies ++ [(s.total, 0)] } := by
      simp only [ndefReadStep, hrb, List.length_nil, BitVec.ofNat_eq_ofNat, BitVec.add_zero,
        BitVec.sub_zero, Nat.add_zero, hok]
    rw [ndefReadLoop, if_pos hr, hs]
    obtain ⟨h1, h2, h3, h4⟩ := ndefReadLoop_silent hc n
      { s with t := s.t + 1, copies := s.copies ++ [(s.total, 0)] } (Nat.le_succ_of_le ht) hr
    exact ⟨h1, h2, h3, (List.prefix_append _ _).trans h4⟩

/-- `NLEN = 1`, then 300 bytes for the loop's first `READ BINARY` and no bytes for every later
one, each with `90 00` -/
def floodThenStall (t : Nat) (_ : List Byte) : Option (List Byte) :=
  if t = 0 then some [0x00, 0x01, 0x90, 0x00]
  else if t = 1 then some (List.replicate 300 0x00 ++ [0x90, 0x00])
  else some [0x90, 0x00]

/-- an over-long answer overruns `ndef`, `remaining` wraps, and the loop never ends -/
theorem ndefRead_floodThenStall (fuel : Nat) :
    ∃ s, ndefRead floodThenStall (fuel + 1) = some ([0x00, 0x01], s) ∧
      nlenOf [0x00, 0x01] = 1 ∧ s.running = true ∧ s.remaining = 65237 ∧ s.total = 300 ∧
      (0, 300) ∈ s.copies := by
  have hnlen : readBinary floodThenStall 0 0 2 = (1, some [0x00, 0x01]) :=
    (readBinary_of_answer _ _ _ [0x00, 0x01] 0x90 0x00 rfl (by decide) (by decide)).trans rfl
  have hflood : readBinary floodThenStall 1 2 (ndefChunk 1) =
      (2, some (List.replicate 300 0x00)) :=
    (readBinary_of_answer _ _ _ _ 0x90 0x00 rfl (by rw [List.length_replicate]; decide)
      (by decide)).trans rfl
  have hstep : ndefReadStep floodThenStall (NdefRead.init 1 1) =
      ⟨302, 65237, 300, true, 2, [(0, 300)]⟩ := by
    simp only [ndefReadStep, NdefRead.init, hflood, List.length_replicate]
    rfl
  obtain ⟨h1, h2, h3, h4⟩ := @ndefReadLoop_silent floodThenStall 2
    (fun t _ ht => by simp only [floodThenStall]; rw [if_neg (by omega), if_neg (by omega)])
    fuel ⟨302, 65237, 300, true, 2, [(0, 300)]⟩ le_rfl (by decide)
  refine ⟨_, ?_, by decide, h1, h2, h3, h4.subset (List.mem_singleton_self _)⟩
  simp only [ndefRead, hnlen, List.length_cons, List.length_nil]
  rw [if_neg (by decide), show nlenOf [0x00, 0x01] = 1 by decide, ndefReadLoop,
    if_pos (by decide), hstep]

end Ntag424

import Ntag424.Spec.Primitives

/-! ISO/IEC 9797-1 method 2. `pad_iso9797_m2` always appends one `0x80` and zeros up to the
next multiple of 16, a whole block when the input is already aligned. `unpad_iso9797_m2`
scans back over trailing zeros; it returns the position of the `0x80` it then finds, the
unique `0x80` followed only by zeros, and the whole length when there is none. So unpadding
a padded buffer returns the original length, whatever the content of the data. -/

namespace Ntag424

/-- `i` holds a `0x80` and every later byte of `c` is zero -/
def IsPadMark (c : List Byte) (i : Nat) : Prop :=
  i < c.length ∧ c.getD i 0 = 0x80 ∧ ∀ j, i < j → j < c.length → c.getD j 0 = 0

theorem padIso9797M2_snd (d : List Byte) : (padIso9797M2 d).2 = 16 * (d.length / 16 + 1) := by
  simp only [padIso9797M2]; split <;> omega

theorem padIso9797M2_fst (d : List Byte) :
    (padIso9797M2 d).1 = d ++ 0x80 :: List.replicate (15 - d.length % 16) 0 := by
  simp only [padIso9797M2]; split
  · omega
  · congr 3; omega

@[simp] theorem length_padIso9797M2_fst (d : List Byte) :
    (padIso9797M2 d).1.length = 16 * (d.length / 16 + 1) := by
  rw [padIso9797M2_fst]; simp; omega

/-- the backward scan stops below the trailing zeros, on a nonzero byte or at the start -/
theorem skipZeros_spec (c : List Byte) (k : Nat) :
    skipZeros c k ≤ k ∧ (∀ j, skipZeros c k ≤ j → j < k → c.getD j 0 = 0) ∧
      (skipZeros c k = 0 ∨ c.getD (skipZeros c k - 1) 0 ≠ 0) := by
  induction k with
  | zero => simp [skipZeros]
  | succ k ih =>
    by_cases hk : c.getD k 0 = 0
    · simp only [skipZeros, hk, ite_true]
      refine ⟨by omega, fun j h1 h2 => ?_, ih.2.2⟩
      rcases Nat.lt_succ_iff_lt_or_eq.mp h2 with h | rfl
      · exact ih.2.1 j h1 h
      · exact hk
    · simp only [skipZeros, hk, ite_false]
      exact ⟨le_rfl, fun j h1 h2 => absurd h2 (by omega), Or.inr hk⟩

theorem unpadIso9797M2_of_isPadMark {c : List Byte} {i : Nat} (h : IsPadMark c i) :
    unpadIso9797M2 c = i := by
  obtain ⟨hi, h80, hz⟩ := h
  obtain ⟨hle, hzero, hstop⟩ := skipZeros_spec c c.length
  set k := skipZeros c c.length
  have hik : i < k := by
    by_contra hki
    have := hzero i (by omega) hi
    simp_all
  have hki : k - 1 = i := by
    by_contra hne
    rcases hstop with h0 | hne0
    · omega
    · exact hne0 (hz (k - 1) (by omega) (by omega))
  simp only [unpadIso9797M2, show c.length ≠ 0 by omega, ite_false]
  rw [if_pos ⟨by omega, by rw [hki]; exact h80⟩, hki]

theorem unpadIso9797M2_of_not_isPadMark {c : List Byte} (h : ∀ i, ¬ IsPadMark c i) :
    unpadIso9797M2 c = c.length := by
  obtain ⟨hle, hzero, -⟩ := skipZeros_spec c c.length
  unfold unpadIso9797M2
  split
  · omega
  · rw [if_neg]
    rintro ⟨hk, h80⟩
    exact h _ ⟨by omega, h80, fun j h1 h2 => hzero j (by omega) h2⟩

theorem isPadMark_padIso9797M2 (d : List Byte) : IsPadMark (padIso9797M2 d).1 d.length := by
  rw [padIso9797M2_fst]
  refine ⟨by simp, by rw [List.getD_append_right _ _ _ _ le_rfl, Nat.sub_self]; rfl, ?_⟩
  intro j h1 h2
  simp only [List.length_append, List.length_cons, List.length_replicate] at h2
  obtain ⟨t, rfl⟩ : ∃ t, j = d.length + 1 + t := ⟨j - d.length - 1, by omega⟩
  rw [List.getD_append_right _ _ _ _ (by omega), show d.length + 1 + t - d.length = t + 1 by omega,
    List.getD_cons_succ]
  simp [List.getElem?_replicate, show t < 15 - d.length % 16 by omega]

theorem unpadIso9797M2_padIso9797M2 (d : List Byte) :
    unpadIso9797M2 (padIso9797M2 d).1 = d.length :=
  unpadIso9797M2_of_isPadMark (isPadMark_padIso9797M2 d)

theorem pad_unpad_iso9797_m2 (d c : List Byte) :
    (padIso9797M2 d).2 = 16 * (d.length / 16 + 1) ∧
    (padIso9797M2 d).1 = d ++ 0x80 :: List.replicate (15 - d.length % 16) 0 ∧
    unpadIso9797M2 (padIso9797M2 d).1 = d.length ∧
    (∀ i, IsPadMark c i → unpadIso9797M2 c = i) ∧
    ((∀ i, ¬ IsPadMark c i) → unpadIso9797M2 c = c.length) :=
  ⟨padIso9797M2_snd d, padIso9797M2_fst d, unpadIso9797M2_padIso9797M2 d,
    fun _ h => unpadIso9797M2_of_isPadMark h, unpadIso9797M2_of_not_isPadMark⟩

end Ntag424

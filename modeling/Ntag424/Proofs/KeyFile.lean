import Ntag424.Spec.KeyFile

/-! What the key readers accept. On 32 hexadecimal digits `parse_hex_key` gives the bytes
they spell, two digits a byte. The length check is all `parse_hex_key` makes of "32 hex
chars": a text of sixteen `+d` or ` d`, each `d` one digit, is a key too.

`read_key_file` skips any blank lines and reads the first other line, trimmed, in pieces of
the 255 bytes one `fgets` takes, whether or not a newline ends it. With at most 223 blanks
before them the 32 digits are in the first piece and are read; 224 to 254 blanks leave too
few of them there, and the key is refused. Of what `write_key_hex_file` writes, the key reads
back whenever the device took its 32 digits. -/

namespace Ntag424

/-! ### Characters -/

theorem hexValue_range {c : Byte} (h : (hexValue c).isSome = true) :
    0x30 ≤ c.toNat ∧ c.toNat ≤ 0x39 ∨ 0x41 ≤ c.toNat ∧ c.toNat ≤ 0x46 ∨
      0x61 ≤ c.toNat ∧ c.toNat ≤ 0x66 := by
  unfold hexValue at h
  split_ifs at h <;> first | omega | cases h

/-- a hexadecimal digit is none of the bytes the readers treat apart -/
theorem hexValue_isSome_facts (c : Byte) (h : (hexValue c).isSome = true) :
    isSpace c = false ∧ c ≠ 0x2D ∧ c ≠ 0x2B ∧ c ≠ 0x78 ∧ c ≠ 0x58 ∧ c ≠ 0 := by
  have hr := hexValue_range h
  have hs : isSpace c = false := by
    simp only [isSpace, Bool.or_eq_false_iff, beq_eq_false_iff_ne, Bool.and_eq_false_iff,
      decide_eq_false_iff_not]
    exact ⟨by bv_omega, by omega⟩
  exact ⟨hs, by bv_omega, by bv_omega, by bv_omega, by bv_omega, by bv_omega⟩

theorem hexValue_of_sep (c : Byte) (h : c = 0x2B ∨ isSpace c = true) : hexValue c = none := by
  unfold hexValue
  simp only [isSpace, Bool.or_eq_true, beq_iff_eq, Bool.and_eq_true, decide_eq_true_eq] at h
  rcases h with rfl | rfl | ⟨h1, h2⟩
  · decide
  · decide
  · rw [if_neg (by omega), if_neg (by omega), if_neg (by omega)]

theorem hexValue_hexDigitChar {n : Nat} (h : n < 16) : hexValue (hexDigitChar n) = some n :=
  (by decide : ∀ m : Fin 16, hexValue (hexDigitChar m) = some m) ⟨n, h⟩

/-! ### `sscanf(s, "%2x", &val)` -/

theorem scanHex2_cons {c : Byte} (hc : isSpace c = false) (s : List Byte) :
    scanHex2 (c :: s) =
      if c = 0x2D then (hexNumber (hexDigits 1 s)).map fun v => -.ofNat 32 v
      else if c = 0x2B then (hexNumber (hexDigits 1 s)).map (.ofNat 32)
      else if (c :: s).take 2 = [0x30, 0x78] ∨ (c :: s).take 2 = [0x30, 0x58] then some 0
      else (hexNumber (hexDigits 2 (c :: s))).map (.ofNat 32) := by
  have hd : (c :: s).dropWhile isSpace = c :: s := List.dropWhile_cons_of_neg (by simp [hc])
  simp only [scanHex2, hd, reduceCtorEq, if_false, List.head?_cons, Option.some.injEq,
    List.tail_cons]

theorem hexNumber_singleton (d : Nat) : hexNumber [d] = some d := by simp [hexNumber]

theorem hexNumber_pair (d1 d2 : Nat) : hexNumber [d1, d2] = some (16 * d1 + d2) := by
  simp [hexNumber]

theorem hexDigits_sep {c' : Byte} (h : c' = 0x2B ∨ isSpace c' = true) (w : Nat) (s : List Byte) :
    hexDigits w (c' :: s) = [] := by
  cases w <;> simp [hexDigits, hexValue_of_sep c' h]

/-- two hexadecimal digits at the front are read as one byte, whatever follows -/
theorem scanHex2_two {c1 c2 : Byte} {d1 d2 : Nat} (h1 : hexValue c1 = some d1)
    (h2 : hexValue c2 = some d2) (rest : List Byte) :
    scanHex2 (c1 :: c2 :: rest) = some (.ofNat 32 (16 * d1 + d2)) := by
  obtain ⟨hs1, hm1, hp1, -, -, -⟩ := hexValue_isSome_facts c1 (by rw [h1]; rfl)
  obtain ⟨-, -, -, hx2, hX2, -⟩ := hexValue_isSome_facts c2 (by rw [h2]; rfl)
  have hx : ¬([c1, c2] = [0x30, 0x78] ∨ [c1, c2] = [0x30, 0x58]) := by
    rintro (h | h) <;> simp only [List.cons.injEq] at h
    exacts [hx2 h.2.1, hX2 h.2.1]
  rw [scanHex2_cons hs1, if_neg hm1, if_neg hp1, List.take_succ_cons, List.take_succ_cons,
    List.take_zero, if_neg hx]
  simp [hexDigits, h1, h2, hexNumber_pair]

/-- a digit between separators is read alone -/
theorem scanHex2_sep {p c : Byte} {d : Nat} (hp : p = 0x2B ∨ isSpace p = true)
    (h : hexValue c = some d) (rest : List Byte)
    (hrest : ∀ c' ∈ rest.head?, c' = 0x2B ∨ isSpace c' = true) :
    scanHex2 (p :: c :: rest) = some (.ofNat 32 d) := by
  obtain ⟨hs, hm, hpl, hx, hX, -⟩ := hexValue_isSome_facts c (by rw [h]; rfl)
  have hdigits : ∀ w, hexDigits (w + 1) (c :: rest) = [d] := by
    intro w
    cases rest with
    | nil => cases w <;> simp [hexDigits, h]
    | cons c' _ => simp [hexDigits, h, hexDigits_sep (hrest c' rfl)]
  rcases hp with rfl | hp
  · rw [scanHex2_cons (by decide), if_neg (by decide), if_pos rfl, hdigits, hexNumber_singleton]
    rfl
  · have hx' : ¬((c :: rest).take 2 = [0x30, 0x78] ∨ (c :: rest).take 2 = [0x30, 0x58]) := by
      rcases rest with _ | ⟨c', _⟩
      · simp
      · have := hrest c' rfl
        rintro (hc | hc) <;> simp only [List.take_succ_cons, List.take_zero,
          List.cons.injEq] at hc <;> rw [hc.2.1] at this <;> exact absurd this (by decide)
    rw [scanHex2, List.dropWhile_cons_of_pos (by simp [hp]), ← scanHex2, scanHex2_cons hs,
      if_neg hm, if_neg hpl, if_neg hx', hdigits, hexNumber_singleton]
    rfl

/-! ### `parse_hex_key` -/

/-- the plain reading of a key text: two hexadecimal digits a byte -/
def hexPairs : List Byte → Option (List Byte)
  | [] => some []
  | [_] => none
  | c1 :: c2 :: rest => do
    let d1 ← hexValue c1
    let d2 ← hexValue c2
    let r ← hexPairs rest
    pure (.ofNat 8 (16 * d1 + d2) :: r)

theorem hexPairs_eq_some {c1 c2 : Byte} {rest bs : List Byte}
    (h : hexPairs (c1 :: c2 :: rest) = some bs) :
    ∃ d1 d2 r, hexValue c1 = some d1 ∧ hexValue c2 = some d2 ∧ hexPairs rest = some r ∧
      bs = .ofNat 8 (16 * d1 + d2) :: r := by
  simp only [hexPairs, Option.bind_eq_bind, Option.bind_eq_some, Option.pure_def,
    Option.some.injEq] at h
  obtain ⟨d1, h1, d2, h2, r, hr, rfl⟩ := h
  exact ⟨d1, d2, r, h1, h2, hr, rfl⟩

theorem parseHexBytes_of_hexPairs :
    ∀ {s bs : List Byte}, hexPairs s = some bs → parseHexBytes bs.length s = some bs ∧
      s.length = 2 * bs.length
  | [], bs, h => by cases h; exact ⟨rfl, rfl⟩
  | [_], _, h => by cases h
  | c1 :: c2 :: rest, bs, h => by
    obtain ⟨d1, d2, r, h1, h2, hr, rfl⟩ := hexPairs_eq_some h
    obtain ⟨ih, hlen⟩ := parseHexBytes_of_hexPairs hr
    refine ⟨?_, by simp [hlen]; omega⟩
    simp [parseHexBytes, scanHex2_two h1 h2, ih]

/-- on 32 hexadecimal digits `parse_hex_key` returns the bytes they spell -/
theorem parseHexKey_of_hexPairs {s bs : List Byte} (h : hexPairs s = some bs)
    (hlen : s.length = 32) : parseHexKey s = some (Bytes.ofList bs) := by
  obtain ⟨hp, hl⟩ := parseHexBytes_of_hexPairs h
  have h16 : bs.length = 16 := by omega
  rw [h16] at hp
  rw [parseHexKey, if_neg (by omega), hp, Option.map_some']

theorem hexPairs_isSome : ∀ {t bs : List Byte}, hexPairs t = some bs → ∀ c ∈ t,
    (hexValue c).isSome = true
  | [], _, _, _, hc => absurd hc (List.not_mem_nil _)
  | [_], _, h, _, _ => by cases h
  | c1 :: c2 :: rest, _, h, c, hc => by
    obtain ⟨d1, d2, r, h1, h2, hr, -⟩ := hexPairs_eq_some h
    rcases List.mem_cons.1 hc with rfl | hc
    · rw [h1]; rfl
    rcases List.mem_cons.1 hc with rfl | hc
    · rw [h2]; rfl
    exact hexPairs_isSome hr c hc

theorem hexPairs_flatMap_hexByte (bs : List Byte) : hexPairs (bs.flatMap hexByte) = some bs := by
  induction bs with
  | nil => rfl
  | cons b bs ih =>
    have hb := b.isLt
    rw [List.flatMap_cons, hexByte, List.cons_append, List.cons_append, List.nil_append,
      hexPairs, hexValue_hexDigitChar (by omega), hexValue_hexDigitChar (by omega), ih]
    simp only [Option.bind_eq_bind, Option.some_bind, Option.pure_def, Option.some.injEq,
      List.cons.injEq, and_true]
    rw [show 16 * (b.toNat / 16) + b.toNat % 16 = b.toNat by omega, BitVec.ofNat_toNat,
      BitVec.setWidth_eq]

/-- the length check is the only one: sixteen separator-digit pairs are a key -/
theorem parseHexKey_sepDigits (l : List (Byte × Byte)) (hl : l.length = 16)
    (hsep : ∀ pd ∈ l, (pd.1 = 0x2B ∨ isSpace pd.1 = true) ∧ (hexValue pd.2).isSome = true) :
    parseHexKey (l.flatMap fun pd => [pd.1, pd.2]) =
      some (Bytes.ofList (l.map fun pd => .ofNat 8 ((hexValue pd.2).getD 0))) := by
  have hloop : ∀ l : List (Byte × Byte), (∀ pd ∈ l, (pd.1 = 0x2B ∨ isSpace pd.1 = true) ∧
      (hexValue pd.2).isSome = true) → parseHexBytes l.length (l.flatMap fun pd => [pd.1, pd.2]) =
        some (l.map fun pd => .ofNat 8 ((hexValue pd.2).getD 0)) := by
    intro l
    induction l with
    | nil => intro; rfl
    | cons pd l ih =>
      intro h
      have hhead : ∀ c' ∈ (l.flatMap fun pd => [pd.1, pd.2]).head?,
          c' = 0x2B ∨ isSpace c' = true := by
        cases l with
        | nil => simp
        | cons q _ => simpa using (h q (by simp)).1
      obtain ⟨hp, hd⟩ := h pd (List.mem_cons_self _ _)
      obtain ⟨d, hd⟩ := Option.isSome_iff_exists.1 hd
      simp [parseHexBytes, scanHex2_sep hp hd _ hhead, hd,
        ih fun q hq => h q (List.mem_cons_of_mem _ hq)]
  have hparse := hloop l hsep
  rw [hl] at hparse
  rw [parseHexKey, if_neg (by simp [List.length_flatMap, Function.comp_def, List.map_const', hl]),
    hparse, Option.map_some']

/-- `+0 1+2 3…+e f` is the key `00 01 … 0F` -/
theorem parseHexKey_sepDigits_alternating :
    let l := (List.range 16).map fun d =>
      ((if d % 2 = 0 then 0x2B else 0x20 : Byte), (ascii "0123456789abcdef").getD d 0)
    l.length = 16 ∧
      (∀ pd ∈ l, (pd.1 = 0x2B ∨ isSpace pd.1 = true) ∧ (hexValue pd.2).isSome = true) ∧
      parseHexKey (l.flatMap fun pd => [pd.1, pd.2]) =
        some (Bytes.ofList (l.map fun pd => .ofNat 8 ((hexValue pd.2).getD 0))) :=
  ⟨rfl, by decide, parseHexKey_sepDigits _ rfl (by decide)⟩

/-! ### `trim_whitespace` -/

theorem drop_trimStart (t : List Byte) : t.drop (trimStart t) = t.dropWhile isSpace := by
  induction t with
  | nil => rfl
  | cons c t ih =>
    by_cases hc : isSpace c = true
    · rw [trimStart, if_pos hc, List.drop_succ_cons, ih, List.dropWhile_cons_of_pos hc]
    · rw [trimStart, if_neg hc, List.drop_zero, List.dropWhile_cons_of_neg hc]

theorem take_trimLen (s : List Byte) :
    ∀ n ≤ s.length, s.take (trimLen s n) = ((s.take n).reverse.dropWhile isSpace).reverse
  | 0, _ => by simp [trimLen]
  | n + 1, hn => by
    have hget : s.getD n 0 = s[n] := by
      rw [List.getD_eq_getElem?_getD, List.getElem?_eq_getElem (by omega), Option.getD_some]
    rw [List.take_succ, List.getElem?_eq_getElem (by omega), Option.toList_some,
      List.reverse_append, List.reverse_singleton, List.singleton_append, trimLen, hget]
    by_cases hc : isSpace s[n] = true
    · rw [if_pos hc, List.dropWhile_cons_of_pos hc, take_trimLen s n (by omega)]
    · rw [if_neg hc, List.dropWhile_cons_of_neg hc, List.reverse_cons, List.reverse_reverse,
        List.take_succ, List.getElem?_eq_getElem (by omega), Option.toList_some]

/-- `trim_whitespace` cuts the white space off both ends -/
theorem trimWhitespace_eq (s : List Byte) :
    trimWhitespace s = ((s.reverse.dropWhile isSpace).reverse).dropWhile isSpace := by
  simp only [trimWhitespace, drop_trimStart, take_trimLen s _ le_rfl, List.take_length]

theorem dropWhile_isSpace_of_head {l : List Byte} (h : ∀ c ∈ l.head?, isSpace c = false) :
    l.dropWhile isSpace = l := by
  cases l with
  | nil => rfl
  | cons c l => exact List.dropWhile_cons_of_neg (by simp [h c rfl])

theorem trimWhitespace_pad {a t b : List Byte} (ha : ∀ c ∈ a, isSpace c = true)
    (ht : ∀ c ∈ t, isSpace c = false) (hb : ∀ c ∈ b, isSpace c = true) :
    trimWhitespace (a ++ t ++ b) = t := by
  rw [trimWhitespace_eq, List.reverse_append, List.reverse_append,
    List.dropWhile_append_of_pos (by simpa using hb)]
  cases hr : t.reverse with
  | nil =>
    have hadrop : a.reverse.dropWhile isSpace = [] :=
      List.dropWhile_eq_nil_iff.2 (by simpa using ha)
    rw [List.nil_append, hadrop, List.reverse_nil, List.dropWhile_nil,
      List.reverse_eq_nil_iff.1 hr]
  | cons c r =>
    have hc : c ∈ t := List.mem_reverse.1 (hr ▸ List.mem_cons_self _ _)
    rw [List.cons_append, List.dropWhile_cons_of_neg (by simp [ht c hc]), ← List.cons_append,
      ← hr, List.reverse_append, List.reverse_reverse, List.reverse_reverse,
      List.dropWhile_append_of_pos ha,
      dropWhile_isSpace_of_head fun x hx => ht x (List.mem_of_mem_head? hx)]

theorem trimWhitespace_blank {l : List Byte} (h : ∀ c ∈ l, isSpace c = true) :
    trimWhitespace l = [] := by
  have h' : l.reverse.dropWhile isSpace = [] := List.dropWhile_eq_nil_iff.2 (by simpa using h)
  rw [trimWhitespace_eq, h']
  rfl

/-! ### `fgets` -/

theorem fgetsLine_succ_cons (n : Nat) (c : Byte) (rest : List Byte) :
    fgetsLine (n + 1) (c :: rest) =
      if c = 0x0A then ([c], rest) else (c :: (fgetsLine n rest).1, (fgetsLine n rest).2) :=
  rfl

theorem fgetsLines_of_ne_nil {s : List Byte} (h : s ≠ []) :
    fgetsLines s = (fgetsLine 255 s).1 :: fgetsLines (fgetsLine 255 s).2 := by
  cases s with
  | nil => exact absurd rfl h
  | cons c cs => rw [fgetsLines]

/-- `fgets` on a line that ends in a newline or at the end of the text -/
theorem fgetsLine_fst_line {l rest : List Byte} (hl : ∀ c ∈ l, c ≠ 0x0A)
    (hrest : rest = [] ∨ rest.head? = some 0x0A) (n : Nat) :
    (fgetsLine n (l ++ rest)).1 = (l ++ rest.take 1).take n := by
  induction l generalizing n with
  | nil =>
    rcases hrest with rfl | hrest
    · cases n <;> rfl
    · obtain ⟨r, rfl⟩ : ∃ r, rest = 0x0A :: r := by
        cases rest with
        | nil => cases hrest
        | cons d r => exact ⟨r, by rw [Option.some.inj hrest]⟩
      cases n with
      | zero => rfl
      | succ n => simp [fgetsLine_succ_cons]
  | cons c l ih =>
    cases n with
    | zero => rfl
    | succ n =>
      rw [List.cons_append, fgetsLine_succ_cons, if_neg (hl c (List.mem_cons_self _ _)),
        ih (fun x hx => hl x (List.mem_cons_of_mem _ hx))]
      rfl

/-- a longer line is cut: with no newline in its first `n` bytes, `fgets` takes those -/
theorem fgetsLine_take : ∀ (n : Nat) (s : List Byte), (∀ c ∈ s.take n, c ≠ 0x0A) →
    n ≤ s.length → fgetsLine n s = (s.take n, s.drop n)
  | 0, _, _, _ => rfl
  | _ + 1, [], _, h => absurd h (by simp)
  | n + 1, c :: s, hnl, h => by
    rw [fgetsLine_succ_cons, if_neg (hnl c (by simp)),
      fgetsLine_take n s (fun x hx => hnl x (by simp [hx])) (by simp at h; omega)]
    rfl

theorem fgetsLine_fst_mem {c : Byte} :
    ∀ (n : Nat) (s : List Byte), c ∈ (fgetsLine n s).1 → c ∈ s
  | 0, _, h => by simp [fgetsLine] at h
  | _ + 1, [], h => by simp [fgetsLine] at h
  | n + 1, d :: s, h => by
    rw [fgetsLine_succ_cons] at h
    split at h
    · exact List.mem_cons.2 (.inl (List.mem_singleton.1 h))
    · rcases List.mem_cons.1 h with rfl | h
      · exact List.mem_cons_self _ _
      · exact List.mem_cons_of_mem _ (fgetsLine_fst_mem n s h)

theorem fgetsLine_snd_suffix : ∀ (n : Nat) (s : List Byte), (fgetsLine n s).2 <:+ s
  | 0, _ => List.suffix_refl _
  | _ + 1, [] => List.suffix_refl _
  | n + 1, d :: s => by
    rw [fgetsLine_succ_cons]
    split
    · exact List.suffix_cons _ _
    · exact (fgetsLine_snd_suffix n s).trans (List.suffix_cons _ _)

theorem fgetsLine_append {pre : List Byte} (hend : pre.getLast? = some 0x0A)
    (rest : List Byte) (n : Nat) :
    fgetsLine n (pre ++ rest) = ((fgetsLine n pre).1, (fgetsLine n pre).2 ++ rest) := by
  induction pre generalizing n with
  | nil => cases hend
  | cons c cs ih =>
    cases n with
    | zero => rfl
    | succ k =>
      by_cases hc : c = 0x0A
      · rw [List.cons_append, fgetsLine_succ_cons, fgetsLine_succ_cons, if_pos hc, if_pos hc]
      · have hcs : cs.getLast? = some 0x0A := by
          rw [List.getLast?_cons] at hend
          cases h : cs.getLast? with
          | none => rw [h] at hend; exact absurd (Option.some.inj hend) hc
          | some x => rw [h] at hend; exact hend
        rw [List.cons_append, fgetsLine_succ_cons, fgetsLine_succ_cons, if_neg hc, if_neg hc,
          ih hcs k]

theorem getLast?_of_suffix {t s : List Byte} (h : t <:+ s) (ht : t ≠ []) :
    t.getLast? = s.getLast? := by
  obtain ⟨u, rfl⟩ := h
  obtain ⟨x, hx⟩ := Option.ne_none_iff_exists'.1 (mt List.getLast?_eq_none_iff.1 ht)
  rw [List.getLast?_append, hx]
  rfl

/-! ### `read_key_file` -/

theorem readKeyLines_cons_blank {l : List Byte} (h : ∀ c ∈ l, isSpace c = true)
    (ls : List (List Byte)) : readKeyLines (l :: ls) = readKeyLines ls := by
  rw [readKeyLines, trimWhitespace_blank fun c hc => h c ((List.takeWhile_subset _ hc)),
    if_pos rfl]

/-- lines of white space before the key, however long, are skipped -/
theorem readKeyLines_blank (rest : List Byte) :
    ∀ (pre : List Byte), (∀ c ∈ pre, isSpace c = true) → (pre = [] ∨ pre.getLast? = some 0x0A) →
      readKeyLines (fgetsLines (pre ++ rest)) = readKeyLines (fgetsLines rest)
  | [], _, _ => rfl
  | c :: cs, hsp, hend => by
    have hend' := hend.resolve_left (List.cons_ne_nil _ _)
    have hsuf := fgetsLine_snd_suffix 255 (c :: cs)
    have hlt := fgetsLine_snd_length_lt 254 c cs
    rw [fgetsLines_of_ne_nil (by simp), fgetsLine_append hend',
      readKeyLines_cons_blank fun x hx => hsp x (fgetsLine_fst_mem _ _ hx)]
    exact readKeyLines_blank rest _ (fun x hx => hsp x (hsuf.subset hx))
      ((eq_or_ne _ []).imp_right fun hne => (getLast?_of_suffix hsuf hne).trans hend')
termination_by pre => pre.length

theorem take_one_of_newline {rest : List Byte} (h : rest = [] ∨ rest.head? = some 0x0A) :
    ∀ c ∈ rest.take 1, c = 0x0A := by
  rcases h with rfl | h
  · simp
  · cases rest with
    | nil => simp
    | cons d r => simpa using h

/-- `read_key_file` reads the first line that is not blank, trimmed -/
theorem readKeyLines_fgetsLines {pre a t b rest : List Byte} (hpre : ∀ c ∈ pre, isSpace c = true)
    (hend : pre = [] ∨ pre.getLast? = some 0x0A)
    (ha : ∀ c ∈ a, isSpace c = true ∧ c ≠ 0x0A) (hb : ∀ c ∈ b, isSpace c = true ∧ c ≠ 0x0A)
    (hrest : rest = [] ∨ rest.head? = some 0x0A) (ht : ∀ c ∈ t, isSpace c = false ∧ c ≠ 0)
    (hne : t ≠ []) (hlen : a.length + t.length ≤ 255) :
    readKeyLines (fgetsLines (pre ++ (a ++ t ++ b ++ rest))) = parseHexKey t := by
  have hw : ∀ c ∈ b ++ rest.take 1, isSpace c = true ∧ c ≠ 0 := by
    intro c hc
    rcases List.mem_append.1 hc with hc | hc
    · exact ⟨(hb c hc).1, fun h => absurd (h ▸ (hb c hc).1) (by decide)⟩
    · rw [take_one_of_newline hrest c hc]
      decide
  have hnl : ∀ c ∈ a ++ t ++ b, c ≠ 0x0A := by
    simp only [List.mem_append]
    rintro c ((hc | hc) | hc)
    · exact (ha c hc).2
    · exact fun h => absurd (h ▸ (ht c hc).1) (by decide)
    · exact (hb c hc).2
  have hline : (a ++ t ++ b ++ rest.take 1).take 255 =
      a ++ t ++ (b ++ rest.take 1).take (255 - a.length - t.length) := by
    rw [List.append_assoc, List.append_assoc, List.take_append_eq_append_take,
      List.take_of_length_le (l := a) (by omega), List.take_append_eq_append_take,
      List.take_of_length_le (l := t) (by omega), Nat.sub_sub, ← List.append_assoc]
  have hnul : ∀ c ∈ a ++ t ++ (b ++ rest.take 1).take (255 - a.length - t.length), c ≠ 0 := by
    simp only [List.mem_append]
    rintro c ((hc | hc) | hc)
    · exact fun h => absurd (h ▸ (ha c hc).1) (by decide)
    · exact (ht c hc).2
    · exact (hw c (List.mem_of_mem_take hc)).2
  rw [readKeyLines_blank _ pre hpre hend, fgetsLines_of_ne_nil (by simp [hne]),
    fgetsLine_fst_line hnl hrest, hline, readKeyLines,
    List.takeWhile_eq_self_iff.2 (by simpa using hnul),
    trimWhitespace_pad (fun c hc => (ha c hc).1) (fun c hc => (ht c hc).1)
      fun c hc => (hw c (List.mem_of_mem_take hc)).1, if_neg hne]

theorem hexValue_flatMap_hexByte {bs : List Byte} {c : Byte} (hc : c ∈ bs.flatMap hexByte) :
    (hexValue c).isSome = true := by
  simp only [List.mem_flatMap, hexByte, List.mem_cons, List.mem_singleton,
    List.not_mem_nil, or_false] at hc
  obtain ⟨b, -, rfl | rfl⟩ := hc <;>
    rw [hexValue_hexDigitChar (by have := b.isLt; omega)] <;> rfl

theorem parseHexKey_hexText (key : Block) :
    parseHexKey (key.toList.flatMap hexByte) = some key := by
  have hp := hexPairs_flatMap_hexByte key.toList
  rw [parseHexKey_of_hexPairs hp (by rw [(parseHexBytes_of_hexPairs hp).2, key.length_toList]),
    Bytes.ofList_toList]

theorem length_hexText (key : Block) : (key.toList.flatMap hexByte).length = 32 := by
  rw [(parseHexBytes_of_hexPairs (hexPairs_flatMap_hexByte key.toList)).2, key.length_toList]

/-- the key reads back from any part of its text that holds the 32 digits -/
theorem readKeyLines_keyHexText_take (key : Block) (n : Nat) :
    readKeyLines (fgetsLines ((keyHexText key).take n)) = if 32 ≤ n then some key else none := by
  have hlen := length_hexText key
  rw [keyHexText, List.take_append_eq_append_take, hlen]
  rcases Nat.eq_zero_or_pos n with rfl | hpos
  · simp only [Nat.zero_sub, List.take_zero, List.append_nil]
    rw [fgetsLines]
    rfl
  have ht : ∀ c ∈ (key.toList.flatMap hexByte).take n, isSpace c = false ∧ c ≠ 0 := fun c hc =>
    have h := hexValue_isSome_facts c (hexValue_flatMap_hexByte (List.mem_of_mem_take hc))
    ⟨h.1, h.2.2.2.2.2⟩
  have hne : (key.toList.flatMap hexByte).take n ≠ [] := by
    rw [Ne, List.take_eq_nil_iff, not_or]
    exact ⟨by omega, fun h => by rw [h] at hlen; cases hlen⟩
  have hrest : [(0x0A : Byte)].take (n - 32) = [] ∨
      ([(0x0A : Byte)].take (n - 32)).head? = some 0x0A := by
    cases n - 32 <;> simp
  have h := @readKeyLines_fgetsLines [] [] _ [] _ (by simp) (.inl rfl) (by simp) (by simp) hrest ht
    hne (by rw [List.length_nil, List.length_take, hlen]; omega)
  simp only [List.nil_append, List.append_nil] at h
  rw [h]
  split
  · rw [List.take_of_length_le (by omega), parseHexKey_hexText]
  · rw [parseHexKey, if_pos (by rw [List.length_take, hlen]; omega)]

/-- a key line after blank lines, at most 223 blanks before its digits, is read -/
theorem readKeyFile_hexLine {fs : Files} {path pre a t b rest bs : List Byte}
    (hread : fs.read path = some (pre ++ (a ++ t ++ b ++ rest)))
    (hpre : ∀ c ∈ pre, isSpace c = true) (hend : pre = [] ∨ pre.getLast? = some 0x0A)
    (ha : ∀ c ∈ a, isSpace c = true ∧ c ≠ 0x0A) (hb : ∀ c ∈ b, isSpace c = true ∧ c ≠ 0x0A)
    (hrest : rest = [] ∨ rest.head? = some 0x0A) (ht : hexPairs t = some bs)
    (hlen : t.length = 32) (ha223 : a.length ≤ 223) :
    readKeyFile fs path = some (Bytes.ofList bs) := by
  have htc : ∀ c ∈ t, isSpace c = false ∧ c ≠ 0 := fun c hc =>
    have h := hexValue_isSome_facts c (hexPairs_isSome ht c hc)
    ⟨h.1, h.2.2.2.2.2⟩
  have hne : t ≠ [] := by rintro rfl; cases hlen
  rw [readKeyFile, hread, Option.some_bind,
    readKeyLines_fgetsLines hpre hend ha hb hrest htc hne (by omega),
    parseHexKey_of_hexPairs ht hlen]

/-- two blank lines, then lower-case digits between blanks, and no newline at the end -/
theorem readKeyFile_hexLine_padded :
    let t := ascii "00112233445566778899aabbccddeeff"
    let text := ascii "  \n\n" ++ (ascii "  " ++ t ++ ascii "\t" ++ [])
    let fs : Files := ⟨id, fun _ => some text, fun _ => false, 0⟩
    let bs : List Byte := [0x00, 0x11, 0x22, 0x33, 0x44, 0x55, 0x66, 0x77, 0x88, 0x99, 0xAA, 0xBB,
      0xCC, 0xDD, 0xEE, 0xFF]
    fs.read (ascii "key.hex") = some text ∧ (∀ c ∈ ascii "  \n\n", isSpace c = true) ∧
      (ascii "  \n\n" = [] ∨ (ascii "  \n\n").getLast? = some 0x0A) ∧
      (∀ c ∈ ascii "  ", isSpace c = true ∧ c ≠ 0x0A) ∧
      (∀ c ∈ ascii "\t", isSpace c = true ∧ c ≠ 0x0A) ∧ hexPairs t = some bs ∧ t.length = 32 ∧
      (ascii "  ").length ≤ 223 ∧ readKeyFile fs (ascii "key.hex") = some (Bytes.ofList bs) := by
  intro t text fs bs
  have hpre : ∀ c ∈ ascii "  \n\n", isSpace c = true := by simp [ascii, isSpace]
  have ha : ∀ c ∈ ascii "  ", isSpace c = true ∧ c ≠ 0x0A := by simp [ascii, isSpace]
  have hb : ∀ c ∈ ascii "\t", isSpace c = true ∧ c ≠ 0x0A := by simp [ascii, isSpace]
  have ht : hexPairs t = some bs := rfl
  have ha223 : (ascii "  ").length ≤ 223 := by simp [ascii]
  exact ⟨rfl, hpre, .inr rfl, ha, hb, ht, rfl, ha223,
    readKeyFile_hexLine rfl hpre (.inr rfl) ha hb (.inl rfl) ht rfl ha223⟩

/-- 224 to 254 blanks before a key leave too few digits in the first 255 bytes -/
theorem readKeyFile_longPadding {fs : Files} {path pre a t rest : List Byte}
    (hread : fs.read path = some (pre ++ (a ++ t ++ rest)))
    (hpre : ∀ c ∈ pre, isSpace c = true) (hend : pre = [] ∨ pre.getLast? = some 0x0A)
    (ha : ∀ c ∈ a, isSpace c = true ∧ c ≠ 0x0A) (ht : ∀ c ∈ t, (hexValue c).isSome = true)
    (hlen : t.length = 32) (h224 : 224 ≤ a.length) (h254 : a.length ≤ 254) :
    readKeyFile fs path = none := by
  have htc : ∀ c ∈ t, isSpace c = false ∧ c ≠ 0x0A ∧ c ≠ 0 := fun c hc =>
    have h := hexValue_isSome_facts c (ht c hc)
    ⟨h.1, fun he => absurd (he ▸ h.1) (by decide), h.2.2.2.2.2⟩
  have hpiece : (a ++ t ++ rest).take 255 = a ++ t.take (255 - a.length) := by
    rw [List.append_assoc, List.take_append_eq_append_take,
      List.take_of_length_le (l := a) (by omega), List.take_append_of_le_length (by omega)]
  have hmem : ∀ c ∈ (a ++ t ++ rest).take 255, c ∈ a ∨ c ∈ t := by
    rw [hpiece]; intro c hc
    exact (List.mem_append.1 hc).imp id fun h => List.mem_of_mem_take h
  have hne : t.take (255 - a.length) ≠ [] := by
    intro h
    rcases List.take_eq_nil_iff.1 h with h | rfl
    · omega
    · cases hlen
  have hnil : a ++ t ++ rest ≠ [] := fun h => by
    rw [List.append_eq_nil, List.append_eq_nil] at h; rw [h.1.2] at hlen; cases hlen
  have hnl : ∀ c ∈ (a ++ t ++ rest).take 255, c ≠ 0x0A := fun c hc =>
    (hmem c hc).elim (fun h => (ha c h).2) fun h => (htc c h).2.1
  have hnul : ∀ c ∈ a ++ t.take (255 - a.length), c ≠ 0 := fun c hc =>
    (List.mem_append.1 hc).elim (fun h h0 => absurd (h0 ▸ (ha c h).1) (by decide))
      fun h => (htc c (List.mem_of_mem_take h)).2.2
  rw [readKeyFile, hread, Option.some_bind, readKeyLines_blank _ pre hpre hend,
    fgetsLines_of_ne_nil hnil, fgetsLine_take 255 _ hnl (by simp; omega), hpiece, readKeyLines,
    List.takeWhile_eq_self_iff.2 (by simpa using hnul), ← List.append_nil (a ++ _),
    trimWhitespace_pad (fun c hc => (ha c hc).1)
      (fun c hc => (htc c (List.mem_of_mem_take hc)).1) (by simp),
    if_neg hne, parseHexKey, if_pos (by simp; omega)]

/-- 230 spaces before a key of 32 `0` digits -/
theorem readKeyFile_longPadding_230 :
    let fs : Files :=
      ⟨id, fun _ => some (List.replicate 230 0x20 ++ List.replicate 32 0x30 ++ [0x0A]),
        fun _ => false, 0⟩
    fs.read [] = some ([] ++ (List.replicate 230 0x20 ++ List.replicate 32 0x30 ++ [0x0A])) ∧
      (∀ c ∈ List.replicate 230 (0x20 : Byte), isSpace c = true ∧ c ≠ 0x0A) ∧
      (∀ c ∈ List.replicate 32 (0x30 : Byte), (hexValue c).isSome = true) ∧
      readKeyFile fs [] = none := by
  intro fs
  have ha : ∀ c ∈ List.replicate 230 (0x20 : Byte), isSpace c = true ∧ c ≠ 0x0A := by
    intro c hc
    rw [List.eq_of_mem_replicate hc]
    decide
  have ht : ∀ c ∈ List.replicate 32 (0x30 : Byte), (hexValue c).isSome = true := by
    intro c hc
    rw [List.eq_of_mem_replicate hc]
    decide
  have hread : fs.read [] =
      some ([] ++ (List.replicate 230 0x20 ++ List.replicate 32 0x30 ++ [0x0A])) := rfl
  exact ⟨hread, ha, ht, readKeyFile_longPadding hread (by simp) (.inl rfl) ha ht
    (List.length_replicate _ _) (by rw [List.length_replicate]; decide)
    (by rw [List.length_replicate]; decide)⟩

/-! ### Key files -/

theorem writeKeyHexFile_eq {fs fs' : Files} {path : List Byte} {key : Block}
    (h : writeKeyHexFile fs path key = some fs') :
    fs' = { fs with
      data := Function.update fs.data (fs.file path)
        (some ((keyHexText key).take (fs.room + ((fs.read path).getD []).length)))
      room := fs.room + ((fs.read path).getD []).length - (keyHexText key).length } := by
  unfold writeKeyHexFile at h
  split at h
  · exact (Option.some.inj h).symm
  · cases h

theorem writeKeyHexFile_read {fs fs' : Files} {path : List Byte} {key : Block}
    (h : writeKeyHexFile fs path key = some fs') (q : List Byte) :
    fs'.read q = if fs.file q = fs.file path then
      some ((keyHexText key).take (fs.room + ((fs.read path).getD []).length)) else fs.read q := by
  rw [writeKeyHexFile_eq h, Files.read, Files.read]
  split
  · next hq => rw [hq]; exact Function.update_same _ _ _
  · next hq => exact Function.update_noteq hq _ _

/-- `read_key_file` after `write_key_hex_file` -/
theorem readKeyFile_writeKeyHexFile {fs fs' : Files} {path : List Byte} {key : Block}
    (h : writeKeyHexFile fs path key = some fs') (q : List Byte) :
    readKeyFile fs' q = if fs.file q = fs.file path then
      (if 32 ≤ fs.room + ((fs.read path).getD []).length then some key else none)
      else readKeyFile fs q := by
  rw [readKeyFile, writeKeyHexFile_read h]
  split
  · rw [Option.some_bind, readKeyLines_keyHexText_take]
  · rfl

end Ntag424

import Mathlib.Data.Nat.Digits
import Ntag424.Spec.Cli
import Ntag424.Proofs.KeyFile

/-! How `main` reads its numbers. `strtoul(s, NULL, 0)` reads `n` written in decimal, in octal
after a leading `0` and in hexadecimal after `0x`, and the cast to `uint8_t` keeps `n` modulo
256. The key-number options go through both before any range check, so `--new-keyno 256`
passes `main`'s check as key 0 and `--new-keyno 010` names key 8.

The command line can ask for every option set whose paths a C string can carry: `renderArgs`
writes one out, and `main` reads it back to the same options (`parseArgs_renderArgs`). -/

namespace Ntag424

/-- the ASCII digit of `d < 10` -/
def digitChar (d : Nat) : Byte := .ofNat 8 (0x30 + d)

/-- `n` in base `b` with the digit characters `f`, most significant first; `0` for zero -/
def digitsText (f : Nat → Byte) (b n : Nat) : List Byte :=
  (if n = 0 then [0] else (Nat.digits b n).reverse).map f

theorem digitValue_digitChar {base d : Nat} (hd : d < base) (hb : base ≤ 10) :
    digitValue base (digitChar d) = some d := by
  have ht : (digitChar d).toNat = 0x30 + d := by
    rw [digitChar, BitVec.toNat_ofNat]; exact Nat.mod_eq_of_lt (by omega)
  simp only [digitValue, ht]
  rw [if_pos (by omega : 0x30 ≤ 0x30 + d ∧ 0x30 + d ≤ 0x39), Nat.add_sub_cancel_left, if_pos hd]

theorem digitValue_hexDigitChar {d : Nat} (hd : d < 16) : digitValue 16 (hexDigitChar d) = some d :=
  (by decide : ∀ m : Fin 16, digitValue 16 (hexDigitChar m) = some m) ⟨d, hd⟩

theorem digitsValue_map {base : Nat} {f : Nat → Byte}
    (hf : ∀ d < base, digitValue base (f d) = some d) :
    ∀ (ds : List Nat) (acc : Nat), (∀ d ∈ ds, d < base) →
      digitsValue base acc (ds.map f) = ds.foldl (fun a d => base * a + d) acc
  | [], _, _ => rfl
  | d :: ds, acc, h => by
    rw [List.map_cons, digitsValue, hf d (h d (List.mem_cons_self _ _))]
    exact digitsValue_map hf ds _ fun x hx => h x (List.mem_cons_of_mem _ hx)

theorem foldl_reverse_eq_ofDigits (b : Nat) (l : List Nat) :
    l.reverse.foldl (fun a d => b * a + d) 0 = Nat.ofDigits b l := by
  rw [List.foldl_reverse]
  induction l with
  | nil => rfl
  | cons d l ih => rw [List.foldr_cons, ih, Nat.ofDigits_cons]; ring

theorem digitsValue_digitsText {b : Nat} {f : Nat → Byte} (hb : 2 ≤ b)
    (hf : ∀ d < b, digitValue b (f d) = some d) (n : Nat) :
    digitsValue b 0 (digitsText f b n) = n := by
  unfold digitsText
  split
  · next h => rw [digitsValue_map hf [0] 0 (by simp; omega)]; simp [h]
  · rw [digitsValue_map hf _ 0 fun d hd => Nat.digits_lt_base hb (List.mem_reverse.1 hd),
      foldl_reverse_eq_ofDigits, Nat.ofDigits_digits]

theorem digitsText_cons {b : Nat} (f : Nat → Byte) (hb : 2 ≤ b) {n : Nat} (hn : n ≠ 0) :
    ∃ d rest, digitsText f b n = f d :: rest ∧ 0 < d ∧ d < b := by
  obtain ⟨l, d, hl⟩ := (List.eq_nil_or_concat (Nat.digits b n)).resolve_left
    (Nat.digits_ne_nil_iff_ne_zero.2 hn)
  rw [List.concat_eq_append] at hl
  have hd : d ≠ 0 := by
    have := Nat.getLast_digit_ne_zero b hn
    simp only [hl, List.getLast_append_singleton] at this
    exact this
  refine ⟨d, (l.reverse.map f), by simp [digitsText, hn, hl], by omega,
    Nat.digits_lt_base hb (by rw [hl]; simp)⟩

theorem digitsText_head {b : Nat} (f : Nat → Byte) (hb : 2 ≤ b) (n : Nat) :
    ∃ d rest, digitsText f b n = f d :: rest ∧ d < b := by
  by_cases hn : n = 0
  · exact ⟨0, [], by simp [digitsText, hn], by omega⟩
  · obtain ⟨d, rest, h, -, hd⟩ := digitsText_cons f hb hn
    exact ⟨d, rest, h, hd⟩

theorem mem_digitsText {b : Nat} {f : Nat → Byte} (hb : 2 ≤ b) {n : Nat} {c : Byte}
    (hc : c ∈ digitsText f b n) : ∃ d < b, c = f d := by
  unfold digitsText at hc
  split at hc
  · exact ⟨0, by omega, by simpa using hc⟩
  · obtain ⟨d, hd, rfl⟩ := List.mem_map.1 hc
    exact ⟨d, Nat.digits_lt_base hb (List.mem_reverse.1 hd), rfl⟩

theorem digitChar_facts : ∀ d < 10, isSpace (digitChar d) = false ∧
    digitChar d ≠ 0x2D ∧ digitChar d ≠ 0x2B ∧ digitChar d ≠ 0x78 ∧ digitChar d ≠ 0x58 ∧
    digitChar d ≠ 0 ∧ (digitChar d = 0x30 → d = 0) := by
  decide

theorem hexDigitChar_ne_zero : ∀ d < 16, hexDigitChar d ≠ 0 := by decide

theorem strtoul0_unsigned {c : Byte} {s : List Byte} (hs : isSpace c = false) (hm : c ≠ 0x2D)
    (hp : c ≠ 0x2B) :
    strtoul0 (c :: s) =
      let v := if (c :: s).take 2 = [0x30, 0x78] ∨ (c :: s).take 2 = [0x30, 0x58] then
          digitsValue 16 0 ((c :: s).drop 2)
        else if c = 0x30 then digitsValue 8 0 (c :: s) else digitsValue 10 0 (c :: s)
      if 2 ^ 64 ≤ v then .allOnes 64 else .ofNat 64 v := by
  have hd : (c :: s).dropWhile isSpace = c :: s := List.dropWhile_cons_of_neg (by simp [hs])
  simp only [strtoul0, hd, List.head?_cons, Option.some.injEq, hm, hp, or_self, if_false,
    decide_False]

theorem take_two_ne_hexMark {c d : Byte} {s : List Byte}
    (h : c = 0x30 → d ≠ 0x78 ∧ d ≠ 0x58) :
    ¬((c :: d :: s).take 2 = [0x30, 0x78] ∨ (c :: d :: s).take 2 = [0x30, 0x58]) := by
  rintro (he | he) <;> simp only [List.take_succ_cons, List.take_zero, List.cons.injEq] at he
  · exact (h he.1).1 he.2.1
  · exact (h he.1).2 he.2.1

/-- `strtoul(s, NULL, 0)` reads `n < 2 ^ 64` written in decimal -/
theorem strtoul0_decimal {n : Nat} (hn : n < 2 ^ 64) :
    strtoul0 (digitsText digitChar 10 n) = .ofNat 64 n := by
  by_cases h0 : n = 0
  · subst h0; decide
  obtain ⟨d, rest, htext, hd0, hd⟩ := digitsText_cons (b := 10) digitChar (by norm_num) h0
  have hv := digitsValue_digitsText (b := 10) (by norm_num)
    (fun d hd => digitValue_digitChar hd le_rfl) n
  obtain ⟨hs, hm, hp, -, -, -, h30⟩ := digitChar_facts d hd
  have h30' : digitChar d ≠ 0x30 := fun h => absurd (h30 h) (by omega)
  rw [htext] at hv ⊢
  have hx : ¬((digitChar d :: rest).take 2 = [0x30, 0x78] ∨
      (digitChar d :: rest).take 2 = [0x30, 0x58]) := by
    rintro (he | he) <;> exact h30' (List.cons_eq_cons.1 he).1
  rw [strtoul0_unsigned hs hm hp]
  simp only [if_neg hx, if_neg h30', hv, if_neg (show ¬2 ^ 64 ≤ n by omega)]

theorem strtoul0_octal {n : Nat} (hn : n < 2 ^ 64) :
    strtoul0 (0x30 :: digitsText digitChar 8 n) = .ofNat 64 n := by
  obtain ⟨d, rest, htext, hd⟩ := digitsText_head (b := 8) digitChar (by norm_num) n
  have hv := digitsValue_digitsText (b := 8) (by norm_num)
    (fun d hd => digitValue_digitChar hd (by norm_num)) n
  obtain ⟨-, -, -, hx, hX, -, -⟩ := digitChar_facts d (by omega)
  have h0 : digitValue 8 0x30 = some 0 := digitValue_digitChar (d := 0) (by norm_num) (by norm_num)
  rw [strtoul0_unsigned (by decide) (by decide) (by decide), htext,
    if_neg (take_two_ne_hexMark fun _ => ⟨hx, hX⟩), if_pos rfl, digitsValue, h0, ← htext]
  simp only [Nat.mul_zero, Nat.add_zero, hv, if_neg (show ¬2 ^ 64 ≤ n by omega)]

theorem strtoul0_hex {n : Nat} (hn : n < 2 ^ 64) :
    strtoul0 (0x30 :: 0x78 :: digitsText hexDigitChar 16 n) = .ofNat 64 n := by
  have hx : (0x30 :: 0x78 :: digitsText hexDigitChar 16 n).take 2 = [0x30, 0x78] ∨
      (0x30 :: 0x78 :: digitsText hexDigitChar 16 n).take 2 = [0x30, 0x58] := .inl rfl
  rw [strtoul0_unsigned (by decide) (by decide) (by decide)]
  simp only [hx, if_true, List.drop_succ_cons, List.drop_zero,
    digitsValue_digitsText (by norm_num) (fun d hd => digitValue_hexDigitChar hd) n,
    if_neg (show ¬2 ^ 64 ≤ n by omega)]

/-! ### Key numbers -/

/-- `n` in decimal, as an argument -/
def decimalArg (n : Nat) : CString :=
  ⟨digitsText digitChar 10 n, fun c hc => by
    obtain ⟨d, hd, rfl⟩ := mem_digitsText (by norm_num) hc
    exact (digitChar_facts d hd).2.2.2.2.2.1⟩

/-- `n` in octal after a `0`, as an argument -/
def octalArg (n : Nat) : CString :=
  ⟨0x30 :: digitsText digitChar 8 n, fun c hc => by
    rcases List.mem_cons.1 hc with rfl | hc
    · decide
    obtain ⟨d, hd, rfl⟩ := mem_digitsText (by norm_num) hc
    exact (digitChar_facts d (by omega)).2.2.2.2.2.1⟩

/-- `n` in hexadecimal after `0x`, as an argument -/
def hexArg (n : Nat) : CString :=
  ⟨0x30 :: 0x78 :: digitsText hexDigitChar 16 n, fun c hc => by
    rcases List.mem_cons.1 hc with rfl | hc
    · decide
    rcases List.mem_cons.1 hc with rfl | hc
    · decide
    obtain ⟨d, hd, rfl⟩ := mem_digitsText (by norm_num) hc
    exact hexDigitChar_ne_zero d hd⟩

/-- the argument `--new-keyno` -/
def newKeyNoArg : CString := ⟨ascii "--new-keyno", by simp [ascii]⟩

/-- the argument `--rotate-keyno` -/
def rotateKeyNoArg : CString := ⟨ascii "--rotate-keyno", by simp [ascii]⟩

/-- the argument `--sdm-keyno` -/
def sdmKeyNoArg : CString := ⟨ascii "--sdm-keyno", by simp [ascii]⟩

theorem cliFlag_newKeyNoArg (o : CliOptions) (v : CString) :
    cliFlag o newKeyNoArg (some v) = some ({ o with newKeyNo := byteArg v }, true) := rfl

theorem cliFlag_rotateKeyNoArg (o : CliOptions) (v : CString) :
    cliFlag o rotateKeyNoArg (some v) = some ({ o with rotateKeyNo := byteArg v }, true) := rfl

theorem cliFlag_sdmKeyNoArg (o : CliOptions) (v : CString) :
    cliFlag o sdmKeyNoArg (some v) = some ({ o with sdmKeyNo := byteArg v }, true) := rfl

theorem byteArg_of_strtoul0 {v : CString} {n : Nat} (h : strtoul0 v.bytes = .ofNat 64 n) :
    byteArg v = .ofNat 8 n := by
  rw [byteArg, h, BitVec.setWidth_ofNat_of_le (by norm_num)]

theorem cliFlags_value {o o' : CliOptions} {a v : CString}
    (h : cliFlag o a (some v) = some (o', true)) (rest : List CString) :
    cliFlags o (a :: v :: rest) = cliFlags o' rest := by
  simp only [cliFlags, h]

/-- a key number is its argument modulo 256, in decimal, octal or hexadecimal -/
theorem cliFlags_keyNoArg (o : CliOptions) (n : Nat) (hn : n < 2 ^ 64) (rest : List CString) :
    ∀ v ∈ [decimalArg n, octalArg n, hexArg n],
      cliFlags o (newKeyNoArg :: v :: rest) = cliFlags { o with newKeyNo := .ofNat 8 n } rest ∧
      cliFlags o (rotateKeyNoArg :: v :: rest) =
        cliFlags { o with rotateKeyNo := .ofNat 8 n } rest ∧
      cliFlags o (sdmKeyNoArg :: v :: rest) = cliFlags { o with sdmKeyNo := .ofNat 8 n } rest := by
  intro v hv
  have hb : byteArg v = .ofNat 8 n := by
    simp only [List.mem_cons, List.mem_singleton, List.not_mem_nil, or_false] at hv
    rcases hv with rfl | rfl | rfl
    exacts [byteArg_of_strtoul0 (strtoul0_decimal hn), byteArg_of_strtoul0 (strtoul0_octal hn),
      byteArg_of_strtoul0 (strtoul0_hex hn)]
  rw [cliFlags_value (cliFlag_newKeyNoArg o v), cliFlags_value (cliFlag_rotateKeyNoArg o v),
    cliFlags_value (cliFlag_sdmKeyNoArg o v), hb]
  exact ⟨rfl, rfl, rfl⟩

/-- `--new-keyno 256` and the other spellings of 256 -/
theorem cliFlags_keyNoArg_256 :
    (256 : Nat) < 2 ^ 64 ∧ ∀ v ∈ [decimalArg 256, octalArg 256, hexArg 256],
      cliFlags cliDefaults (newKeyNoArg :: v :: []) =
        cliFlags { cliDefaults with newKeyNo := .ofNat 8 256 } [] ∧
      cliFlags cliDefaults (rotateKeyNoArg :: v :: []) =
        cliFlags { cliDefaults with rotateKeyNo := .ofNat 8 256 } [] ∧
      cliFlags cliDefaults (sdmKeyNoArg :: v :: []) =
        cliFlags { cliDefaults with sdmKeyNo := .ofNat 8 256 } [] :=
  ⟨by norm_num, cliFlags_keyNoArg cliDefaults 256 (by norm_num) []⟩

/-! ### The command line as a whole -/

/-- the C string of the bytes of `l` up to its first NUL -/
def cstring (l : List Byte) : CString :=
  ⟨l.takeWhile (· ≠ 0), fun c hc => by simpa using List.mem_takeWhile_imp hc⟩

theorem cstring_bytes {l : List Byte} (h : 0 ∉ l) : (cstring l).bytes = l :=
  List.takeWhile_eq_self_iff.2 fun c hc => by simpa using ne_of_mem_of_not_mem hc h

/-- an option, as an argument -/
def flagArg (s : String) : CString := cstring (ascii s)

/-- `flag` when `b` holds -/
def boolFlag (flag : String) (b : Bool) : List CString := if b then [flagArg flag] else []

/-- `flag path` when there is a path -/
def pathFlag (flag : String) : Option (List Byte) → List CString
  | some q => [flagArg flag, cstring q]
  | none => []

/-- the options of `o` as `main` reads them, after the positional arguments -/
def renderFlags (o : CliOptions) : List CString :=
  boolFlag "--provision" o.doProvision ++ pathFlag "--provision-key" o.provisionKeyPath ++
  newKeyNoArg :: decimalArg o.newKeyNo.toNat :: pathFlag "--key-out" o.keyOutPath ++
  boolFlag "--rotate-key" o.doRotateKey ++
  rotateKeyNoArg :: decimalArg o.rotateKeyNo.toNat :: pathFlag "--old-key" o.rotateOldKeyPath ++
  pathFlag "--rotate-new-key" o.rotateNewKeyInPath ++ pathFlag "--new-key-out" o.rotateNewKeyPath ++
  boolFlag "--sdm-setup" o.doSdmSetup ++
  [flagArg "--sdm-url", o.sdmBaseUrl, sdmKeyNoArg, decimalArg o.sdmKeyNo.toNat]

/-- an argument list for the options `o`: the reader index 0, then the key in hexadecimal,
`key_no` and `counter_file_no` in decimal, then the options -/
def renderArgs (o : CliOptions) : List CString :=
  decimalArg 0 :: cstring (o.key.toList.flatMap hexByte) :: decimalArg o.keyNo.toNat ::
    decimalArg o.counterFileNo.toNat :: renderFlags o

/-- no path of `o` holds a NUL, so an argument can carry it -/
def CliOptions.PathsNulFree (o : CliOptions) : Prop :=
  ∀ p ∈ [o.provisionKeyPath, o.keyOutPath, o.rotateOldKeyPath, o.rotateNewKeyInPath,
    o.rotateNewKeyPath], ∀ q ∈ p, 0 ∉ q

theorem cliFlags_noValue {o o' : CliOptions} {a : CString}
    (h : ∀ next, cliFlag o a next = some (o', false)) (rest : List CString) :
    cliFlags o (a :: rest) = cliFlags o' rest := by
  cases rest with
  | nil => simp only [cliFlags, h, Option.map_some']
  | cons v rest => simp only [cliFlags, h]

theorem cliFlags_boolFlag (s : String) (f : CliOptions → Bool → CliOptions)
    (hs : ∀ o next, cliFlag o (flagArg s) next = some (f o true, false)) {o : CliOptions}
    (hdef : f o false = o) (b : Bool) (rest : List CString) :
    cliFlags o (boolFlag s b ++ rest) = cliFlags (f o b) rest := by
  cases b
  · rw [hdef]; rfl
  · exact cliFlags_noValue (hs o) rest

theorem cliFlags_pathFlag (s : String) (f : CliOptions → Option (List Byte) → CliOptions)
    (hs : ∀ o v, cliFlag o (flagArg s) (some v) = some (f o (some v.bytes), true))
    {o : CliOptions} (hdef : f o none = o) {p : Option (List Byte)} (hp : ∀ q ∈ p, 0 ∉ q)
    (rest : List CString) :
    cliFlags o (pathFlag s p ++ rest) = cliFlags (f o p) rest := by
  cases p with
  | none => rw [hdef]; rfl
  | some q => rw [pathFlag, List.cons_append, List.cons_append, cliFlags_value (hs o _),
      cstring_bytes (hp q rfl)]; rfl

theorem byteArg_decimalArg (b : Byte) : byteArg (decimalArg b.toNat) = b := by
  rw [byteArg_of_strtoul0 (v := decimalArg _) (strtoul0_decimal (by omega)), BitVec.ofNat_toNat,
    BitVec.setWidth_eq]


theorem cliFlag_boolFlags (o : CliOptions) (next : Option CString) :
    cliFlag o (flagArg "--provision") next = some ({ o with doProvision := true }, false) ∧
    cliFlag o (flagArg "--rotate-key") next = some ({ o with doRotateKey := true }, false) ∧
    cliFlag o (flagArg "--sdm-setup") next = some ({ o with doSdmSetup := true }, false) :=
  ⟨rfl, rfl, rfl⟩

theorem cliFlag_pathFlags (o : CliOptions) (v : CString) :
    cliFlag o (flagArg "--provision-key") (some v) =
      some ({ o with provisionKeyPath := some v.bytes }, true) ∧
    cliFlag o (flagArg "--key-out") (some v) = some ({ o with keyOutPath := some v.bytes }, true) ∧
    cliFlag o (flagArg "--old-key") (some v) =
      some ({ o with rotateOldKeyPath := some v.bytes }, true) ∧
    cliFlag o (flagArg "--rotate-new-key") (some v) =
      some ({ o with rotateNewKeyInPath := some v.bytes }, true) ∧
    cliFlag o (flagArg "--new-key-out") (some v) =
      some ({ o with rotateNewKeyPath := some v.bytes }, true) ∧
    cliFlag o (flagArg "--sdm-url") (some v) = some ({ o with sdmBaseUrl := v }, true) :=
  ⟨rfl, rfl, rfl, rfl, rfl, rfl⟩

theorem cliFlag_keyNoArgs (o : CliOptions) (b : Byte) :
    cliFlag o newKeyNoArg (some (decimalArg b.toNat)) = some ({ o with newKeyNo := b }, true) ∧
    cliFlag o rotateKeyNoArg (some (decimalArg b.toNat)) =
      some ({ o with rotateKeyNo := b }, true) ∧
    cliFlag o sdmKeyNoArg (some (decimalArg b.toNat)) = some ({ o with sdmKeyNo := b }, true) := by
  rw [cliFlag_newKeyNoArg, cliFlag_rotateKeyNoArg, cliFlag_sdmKeyNoArg, byteArg_decimalArg]
  exact ⟨rfl, rfl, rfl⟩

/-- the option loop reads the rendered options back -/
theorem renderFlags_cliFlags (o : CliOptions) (hnul : o.PathsNulFree) :
    cliFlags { cliDefaults with key := o.key, keyNo := o.keyNo, counterFileNo := o.counterFileNo }
      (renderFlags o) = some o := by
  simp only [CliOptions.PathsNulFree, List.mem_cons, List.mem_singleton, List.not_mem_nil,
    or_false, forall_eq_or_imp, forall_eq] at hnul
  obtain ⟨h1, h2, h3, h4, h5⟩ := hnul
  simp only [renderFlags, List.append_assoc, List.cons_append]
  rewrite [cliFlags_boolFlag "--provision" (fun o b => { o with doProvision := b })
      (fun o n => (cliFlag_boolFlags o n).1) _,
    cliFlags_pathFlag "--provision-key" (fun o p => { o with provisionKeyPath := p })
      (fun o v => (cliFlag_pathFlags o v).1) _ h1,
    cliFlags_value (cliFlag_keyNoArgs _ _).1,
    cliFlags_pathFlag "--key-out" (fun o p => { o with keyOutPath := p })
      (fun o v => (cliFlag_pathFlags o v).2.1) _ h2,
    cliFlags_boolFlag "--rotate-key" (fun o b => { o with doRotateKey := b })
      (fun o n => (cliFlag_boolFlags o n).2.1) _,
    cliFlags_value (cliFlag_keyNoArgs _ _).2.1,
    cliFlags_pathFlag "--old-key" (fun o p => { o with rotateOldKeyPath := p })
      (fun o v => (cliFlag_pathFlags o v).2.2.1) _ h3,
    cliFlags_pathFlag "--rotate-new-key" (fun o p => { o with rotateNewKeyInPath := p })
      (fun o v => (cliFlag_pathFlags o v).2.2.2.1) _ h4,
    cliFlags_pathFlag "--new-key-out" (fun o p => { o with rotateNewKeyPath := p })
      (fun o v => (cliFlag_pathFlags o v).2.2.2.2.1) _ h5,
    cliFlags_boolFlag "--sdm-setup" (fun o b => { o with doSdmSetup := b })
      (fun o n => (cliFlag_boolFlags o n).2.2) _,
    cliFlags_value (cliFlag_pathFlags _ _).2.2.2.2.2, cliFlags_value (cliFlag_keyNoArgs _ _).2.2]
  · cases o
    simp only [cliFlags]
  all_goals rfl


theorem nextPositional_decimalArg (n : Nat) (rest : List CString) :
    nextPositional (decimalArg n :: rest) = some (decimalArg n, rest) := by
  obtain ⟨d, ds, h, hd⟩ := digitsText_head (b := 10) digitChar (by norm_num) n
  have hm : digitChar d ≠ 0x2D := (digitChar_facts d hd).2.1
  simp only [nextPositional, decimalArg, h, List.head?_cons, Option.some.injEq, hm, if_false]

theorem nextPositional_keyArg (key : Block) (rest : List CString) :
    nextPositional (cstring (key.toList.flatMap hexByte) :: rest) =
      some (cstring (key.toList.flatMap hexByte), rest) ∧
    (cstring (key.toList.flatMap hexByte)).bytes = key.toList.flatMap hexByte := by
  have hc : ∀ c ∈ key.toList.flatMap hexByte, c ≠ 0 ∧ c ≠ 0x2D := fun c hc =>
    have h := hexValue_isSome_facts c (hexValue_flatMap_hexByte hc)
    ⟨h.2.2.2.2.2, h.2.1⟩
  have hb := cstring_bytes fun h0 => (hc 0 h0).1 rfl
  refine ⟨?_, hb⟩
  rw [nextPositional, hb]
  cases hl : key.toList.flatMap hexByte with
  | nil => rfl
  | cons c l =>
    rw [List.head?_cons,
      if_neg fun he => (hc c (hl ▸ List.mem_cons_self c l)).2 (Option.some.inj he)]

/-- the positional arguments give the key, `key_no` and `counter_file_no` back -/
theorem cliPositional_renderArgs (o : CliOptions) :
    cliPositional (renderArgs o) =
      some ({ cliDefaults with key := o.key, keyNo := o.keyNo, counterFileNo := o.counterFileNo },
        renderFlags o) := by
  obtain ⟨hpos, hb⟩ := nextPositional_keyArg o.key
    (decimalArg o.keyNo.toNat :: decimalArg o.counterFileNo.toNat :: renderFlags o)
  simp [cliPositional, renderArgs, nextPositional_decimalArg, hpos, hb, parseHexKey_hexText,
    byteArg_decimalArg]

/-- the argument loop reads back every option set the command line can carry -/
theorem parseArgs_renderArgs (o : CliOptions) (hnul : o.PathsNulFree)
    (h : ¬(o.doProvision = true ∧ o.doRotateKey = true)) :
    parseArgs (renderArgs o) = .ok (o.toMainOptions h, o.keyPaths) := by
  rw [parseArgs, cliPositional_renderArgs]
  dsimp only
  rw [renderFlags_cliFlags o hnul]
  dsimp only
  rw [dif_neg h]

/-- `--provision` of key 3 with a key-out path, and the defaults besides -/
theorem parseArgs_renderArgs_provision :
    let o : CliOptions :=
      { cliDefaults with doProvision := true, newKeyNo := 3, keyOutPath := some (ascii "k3.hex") }
    o.PathsNulFree ∧ ¬(o.doProvision = true ∧ o.doRotateKey = true) ∧
      parseArgs (renderArgs o) = .ok (o.toMainOptions (by decide), o.keyPaths) := by
  intro o
  have hnul : o.PathsNulFree := by simp [o, CliOptions.PathsNulFree, cliDefaults, ascii]
  exact ⟨hnul, by decide, parseArgs_renderArgs o hnul (by decide)⟩

end Ntag424

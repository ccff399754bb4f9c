import Ntag424.Spec.Main
import Ntag424.Proofs.Exchange
import Ntag424.Proofs.Channel

/-! `main`'s card phase against a card with a key store. The card runs EV2-First under the key
part 1 names, reads ChangeKey in communication mode Full and replaces the key when the data
reads back under the key it replaces; everything else it does is left open. It reads every
ChangeKey in the format `change_key` sends, also one that names the key the session was
authenticated with: neither the source nor its specification says what a card does then,
and the theorems that let a ChangeKey name `key_no` rest on this reading.

`main` keeps `counter_key` in step with the card. Only ChangeKey touches the card's keys, and
only the provisioning and rotation blocks send it. When the card holds `key` under `key_no`,
the zero key under `new_key_no` for `--provision`, and the old key under `rotate_key_no` for
`--rotate-key`, the card holds `counter_key` under `counter_key_no` from then on, and the last
EV2-First, with that key, succeeds whenever `main` gets to it.

`change_key` returns 1 on any answer `91 XX` whose MAC checks, and `main` takes that as
success. Against a card that refuses the new key with a MAC-checked error, `--provision`
goes on with `counter_key` set to a key the card does not hold.

Every APDU of the phase, whatever the card answers, is a short APDU whose `Lc` is its data
length, with one of eight `INS` bytes. -/

namespace Ntag424

open Exchange

/-- what EV2-First has left on the card: nothing, part 1 for a key number and nonce, or a
session -/
inductive PiccAuth
  | idle
  | part1 (keyNo : Byte) (rndB : Block)
  | session (s : Session)

/-- a card with a key store: its keys, what EV2-First has left, the handshakes it has drawn
nonces for, and the state of its other functions -/
structure Picc (ω : Type) where
  keys : Byte → Block
  auth : PiccAuth
  draws : Nat
  other : ω

/-- the card's ChangeKey of key `keyNo`: the new key table, when the data reads back under
the key it replaces -/
def piccChangeKey (keys : Byte → Block) (keyNo : Byte) (d : List Byte) :
    Option (Byte → Block) :=
  (changeKeyDecode (keys keyNo) d).map fun r => Function.update keys keyNo r.1

/-- the `INS` byte of an APDU -/
def insOf (apdu : List Byte) : Byte := apdu.getD 1 0

theorem insOf_ne_of_apduOf {ins : List Byte} {a : List Byte} {x : Byte} (h : ApduOf ins a)
    (hx : x ∉ ins) : insOf a ≠ x :=
  fun he => hx (he ▸ h.2)

/-- a ChangeKey APDU, if the APDU is one, for a key that `ok` allows -/
def ChangeKeyFor (ok : Byte → Prop) (a : List Byte) : Prop := insOf a = 0xC4 → ok (a.getD 5 0)

theorem Exchange.AllSent.changeKeyFor {α : Type} {ins : List Byte} {x : Exchange α}
    (hx : x.AllSent (ApduOf ins)) (hins : (0xC4 : Byte) ∉ ins) (ok : Byte → Prop) :
    x.AllSent (ChangeKeyFor ok) :=
  hx.mono fun _ ha hc => absurd hc (insOf_ne_of_apduOf ha hins)

namespace BlockCipher

variable (aes : BlockCipher) {ω : Type} (nonce : Nat → Block × Bytes 4 × Bytes 12)
  (app : ω → Byte → List Byte → List Byte → ω × Byte × List Byte)
  (plain : ω → List Byte → ω × Option (List Byte))

/-- the card on one APDU. `90 71` starts EV2-First under the key it names with the next nonce
`RndB`, `TI` and capabilities, and `90 AF` finishes it. In a session, a Full-mode command
with a one-byte header whose MAC checks is answered under the next counter: ChangeKey for
`INS = C4`, the card's other functions for any other `INS`. Every other APDU goes to the other
functions as it is. ChangeKey reads its data with `changeKeyDecode` whichever key it names,
the authenticated one included, and the session goes on after it. -/
def piccKeyStep (st : Picc ω) (apdu : List Byte) : Picc ω × Option (List Byte) :=
  if apdu.take 2 = [0x90, 0x71] then
    ({ st with auth := .part1 (apdu.getD 5 0) (nonce st.draws).1 },
      some (aes.piccAuth1 (st.keys (apdu.getD 5 0)) (nonce st.draws).1))
  else if apdu.take 2 = [0x90, 0xAF] then
    match st.auth with
    | .part1 keyNo rndB =>
      match aes.piccAuth2 (st.keys keyNo) keyNo rndB (nonce st.draws).2.1 (nonce st.draws).2.2
          apdu with
      | some (ans, s) => ({ st with auth := .session s, draws := st.draws + 1 }, some ans)
      | none => ({ st with auth := .idle, draws := st.draws + 1 }, some [0x91, 0xAE])
    | _ => ({ st with auth := .idle }, some [0x91, 0xAE])
  else
    let other := fun (_ : Unit) =>
      let r := plain st.other apdu
      ({ st with other := r.1 }, r.2)
    match st.auth with
    | .session s =>
      match aes.piccCommand (fun _ => 1) s apdu with
      | some (ins, h, d) =>
        let s' := { s with cmdCtr := s.cmdCtr + 1 }
        if ins = 0xC4 then
          match piccChangeKey st.keys (h.getD 0 0) d with
          | some keys => ({ st with keys := keys, auth := .session s' },
              some (aes.piccAnswer s 0x00 []))
          | none => ({ st with auth := .session s' }, some (aes.piccAnswer s 0x1E []))
        else
          let r := app st.other ins h d
          ({ st with auth := .session s', other := r.1 }, some (aes.piccAnswer s r.2.1 r.2.2))
      | none => other ()
    | _ => other ()

theorem piccCommand_ins {hdrLen : Byte → Nat} {s : Session} {apdu : List Byte} {ins : Byte}
    {h d : List Byte} (hc : aes.piccCommand hdrLen s apdu = some (ins, h, d)) :
    insOf apdu = ins := by
  unfold piccCommand at hc
  split at hc
  · dsimp only at hc
    split at hc
    · cases hc; rfl
    · cases hc
  · cases hc

theorem piccCommand_header {hdrLen : Byte → Nat} {s : Session} {apdu : List Byte} {ins : Byte}
    {h d : List Byte} (hc : aes.piccCommand hdrLen s apdu = some (ins, h, d))
    (h1 : hdrLen ins ≠ 0) : h.getD 0 0 = apdu.getD 5 0 := by
  unfold piccCommand at hc
  split at hc
  · next rest =>
    dsimp only at hc
    split at hc
    · next hcond =>
      cases hc
      obtain ⟨m, hm⟩ := Nat.exists_eq_succ_of_ne_zero h1
      cases rest with
      | nil => simp at hcond
      | cons r rs => simp [hm]
    · cases hc
  · cases hc

/-- what one APDU can do to the card's keys -/
theorem piccKeyStep_keys_cases (st : Picc ω) (apdu : List Byte) :
    (aes.piccKeyStep nonce app plain st apdu).1.keys = st.keys ∨
      insOf apdu = 0xC4 ∧ ∃ key, (aes.piccKeyStep nonce app plain st apdu).1.keys =
        Function.update st.keys (apdu.getD 5 0) key := by
  unfold piccKeyStep
  split
  · exact .inl rfl
  split
  · split
    · split <;> exact .inl rfl
    · exact .inl rfl
  dsimp only
  split
  · split
    · next ins hh d hc =>
      split
      · next hins =>
        split
        · next keys hk =>
          simp only [piccChangeKey, Option.map_eq_some'] at hk
          obtain ⟨r, -, rfl⟩ := hk
          exact .inr ⟨(aes.piccCommand_ins hc).trans hins, r.1,
            by rw [aes.piccCommand_header hc one_ne_zero]⟩
        · exact .inl rfl
      · exact .inl rfl
    · exact .inl rfl
  · exact .inl rfl

theorem piccKeyStep_keys (st : Picc ω) (apdu : List Byte) (h : insOf apdu ≠ 0xC4) :
    (aes.piccKeyStep nonce app plain st apdu).1.keys = st.keys :=
  (aes.piccKeyStep_keys_cases nonce app plain st apdu).resolve_right fun hc => h hc.1

theorem piccKeyStep_keys_other (st : Picc ω) (apdu : List Byte) {k : Byte}
    (h : ChangeKeyFor (· ≠ k) apdu) :
    (aes.piccKeyStep nonce app plain st apdu).1.keys k = st.keys k := by
  rcases aes.piccKeyStep_keys_cases nonce app plain st apdu with he | ⟨hins, key, he⟩
  · rw [he]
  · rw [he, Function.update_noteq (Ne.symm (h hins))]

/-- a program that never sends ChangeKey leaves the card's keys as they are -/
theorem run_keys {α : Type} {ins : List Byte} (hins : (0xC4 : Byte) ∉ ins) {x : Exchange α}
    (hx : x.AllSent (ApduOf ins)) (st : Picc ω) :
    (x.run (aes.piccKeyStep nonce app plain) st).1.keys = st.keys :=
  run_invariant _ (fun c => c.keys = st.keys)
    (fun c _ ha hc => (aes.piccKeyStep_keys nonce app plain c _
      (insOf_ne_of_apduOf ha hins)).trans hc) x st hx rfl

theorem run_keys_other {α : Type} {x : Exchange α} {k : Byte}
    (hx : x.AllSent (ChangeKeyFor (· ≠ k))) (st : Picc ω) :
    (x.run (aes.piccKeyStep nonce app plain) st).1.keys k = st.keys k :=
  run_invariant _ (fun c => c.keys k = st.keys k)
    (fun c _ ha hc => (aes.piccKeyStep_keys_other nonce app plain c _ ha).trans hc) x st hx rfl

theorem piccKeyStep_apdu1 (st : Picc ω) (keyNo : Byte) :
    aes.piccKeyStep nonce app plain st (ev2FirstApdu1 keyNo) =
      ({ st with auth := .part1 keyNo (nonce st.draws).1 },
        some (aes.piccAuth1 (st.keys keyNo) (nonce st.draws).1)) := rfl

theorem piccKeyStep_apdu2 (st : Picc ω) (keyNo : Byte) (rndB : Block)
    (hst : st.auth = .part1 keyNo rndB) (e : List Byte) :
    aes.piccKeyStep nonce app plain st (ev2FirstApdu2 e) =
      match aes.piccAuth2 (st.keys keyNo) keyNo rndB (nonce st.draws).2.1 (nonce st.draws).2.2
          (ev2FirstApdu2 e) with
      | some (ans, s) => ({ st with auth := .session s, draws := st.draws + 1 }, some ans)
      | none => ({ st with auth := .idle, draws := st.draws + 1 }, some [0x91, 0xAE]) := by
  have h2 : (ev2FirstApdu2 e).take 2 = [0x90, 0xAF] := rfl
  rw [piccKeyStep, h2, if_neg (by decide), if_pos rfl, hst]

/-- EV2-First against the card: host and card end in one session, the keys unchanged -/
theorem run_authenticateEv2FirstEx (st : Picc ω) (key : Block) (keyNo : Byte) (rndA : Block)
    (sess : Session) (hkey : st.keys keyNo = key) :
    let rndB := (nonce st.draws).1
    let s : Session := ⟨aes.aesCmac key (svPrefix1 ++ svTail rndA rndB),
      aes.aesCmac key (svPrefix2 ++ svTail rndA rndB), (nonce st.draws).2.1, 0, keyNo, true⟩
    (aes.authenticateEv2FirstEx key keyNo rndA sess).run (aes.piccKeyStep nonce app plain) st =
      ({ st with auth := .session s, draws := st.draws + 1 },
        ⟨true, s, [ev2FirstApdu1 keyNo, ev2FirstApdu2 (aes.cbcEncrypt key 2 0
          (rndA.toList ++ rotateLeft1 rndB.toList))]⟩) := by
  intro rndB s
  have h1 : aes.ev2FirstPart1 key rndA (some (aes.piccAuth1 key rndB)) =
      some (rndB, aes.cbcEncrypt key 2 0 (rndA.toList ++ rotateLeft1 rndB.toList)) :=
    aes.ev2FirstPart1_honest key rndA rndB
  simp only [authenticateEv2FirstEx, send_bind, run_send, done_bind, piccKeyStep_apdu1, hkey, h1]
  rw [piccKeyStep_apdu2 aes nonce app plain _ keyNo rndB rfl, hkey,
    piccAuth2_ev2FirstApdu2]
  simp only [done_bind, pure_eq, run_done, authenticateEv2First_picc]

theorem run_changeKeyEx (st : Picc ω) (s : Session) (hauth : s.authenticated = true)
    (hs : st.auth = .session s) (keyNo : Byte) (oldKey newKey : Block) (keyVer : Byte) :
    (aes.changeKeyEx s keyNo oldKey newKey keyVer).run (aes.piccKeyStep nonce app plain) st =
      match piccChangeKey st.keys keyNo (changeKeyData oldKey newKey keyVer) with
      | some keys => ({ st with keys := keys, auth := .session { s with cmdCtr := s.cmdCtr + 1 } },
          aes.changeKey s keyNo oldKey newKey keyVer (some (aes.piccAnswer s 0x00 [])))
      | none => ({ st with auth := .session { s with cmdCtr := s.cmdCtr + 1 } },
          aes.changeKey s keyNo oldKey newKey keyVer (some (aes.piccAnswer s 0x1E []))) := by
  obtain ⟨enc, hlen, hapdu, hdata⟩ := aes.ssmCmdFull_sends hauth 0xC4 [keyNo]
    (changeKeyData oldKey newKey keyVer) (by simp [changeKeyData]) 16 none
  have hlen' : enc.length ≤ 37 := by simpa [changeKeyData] using hlen
  rw [changeKeyEx, changeKey, hapdu, run_oneApdu, piccKeyStep, if_neg (by simp),
    if_neg (by simp), hs]
  dsimp only
  rw [piccCommand_wrapped aes _ s 0xC4 [keyNo] enc rfl (by simp; omega), hdata]
  simp only [if_pos, List.getD_cons_zero]
  split <;> rfl

/-- `change_key` returns 1 on every MAC-checked answer, whatever its status -/
theorem changeKey_piccAnswer (s : Session) (hauth : s.authenticated = true) (keyNo : Byte)
    (oldKey newKey : Block) (keyVer sw2 : Byte) :
    (aes.changeKey s keyNo oldKey newKey keyVer (some (aes.piccAnswer s sw2 []))).ok = true := by
  have hlen : (aes.fullCryptogram s.kenc (ivcIn s) (changeKeyData oldKey newKey keyVer)).length =
      32 := by
    rw [length_fullCryptogram, if_neg (by simp [changeKeyData])]; simp [changeKeyData]
  rw [changeKey, piccAnswer, aes.ssmCmdFull_honest s hauth _ _ _ [] _ _ (by simp [hlen])
    (by simp) (by simp [length_fullCryptogram])]

/-! ### What the blocks send -/

/-- the `INS` bytes of `main`'s card phase -/
def mainIns : List Byte := [0x71, 0xAF, 0xC4, 0x5F, 0xA4, 0xD6, 0xF5, 0xF6]

theorem mainProvision_allSent {P : List Byte → Prop} (o : MainOptions) (newKey : Option Block)
    (rndA : Block) (hauth : (aes.authenticateEv2FirstEx o.key o.keyNo rndA Session.zero).AllSent P)
    (hck : ∀ s oldKey newKey, (aes.changeKeyEx s o.newKeyNo oldKey newKey 0x01).AllSent P) :
    (aes.mainProvision o newKey rndA).AllSent P := by
  unfold mainProvision
  split
  · trivial
  split
  · trivial
  refine allSent_bind hauth fun a => ?_
  split
  · trivial
  refine allSent_bind (hck _ _ _) fun c => ?_
  split <;> trivial

theorem mainRotate_allSent {P : List Byte → Prop} (o : MainOptions) (ck : CounterKey)
    (oldKey newKey : Option Block) (rndA : Block)
    (hauth : (aes.authenticateEv2FirstEx o.key o.keyNo rndA Session.zero).AllSent P)
    (hck : ∀ s oldKey newKey, (aes.changeKeyEx s o.rotateKeyNo oldKey newKey 0x01).AllSent P) :
    (aes.mainRotate o ck oldKey newKey rndA).AllSent P := by
  unfold mainRotate
  split
  · trivial
  split
  · refine allSent_bind hauth fun a => ?_
    split
    · trivial
    refine allSent_bind (hck _ _ _) fun c => ?_
    split <;> trivial
  · trivial

theorem mainSdmSetup_sends (o : MainOptions) (fsInfo : FileSettingsInfo) (rndA : Block) :
    (aes.mainSdmSetup o fsInfo rndA).AllSent (ApduOf [0x71, 0xAF, 0x5F, 0xA4, 0xD6, 0xF5]) := by
  unfold mainSdmSetup
  split
  · trivial
  split
  · trivial
  refine allSent_bind ((aes.authenticateEv2FirstEx_sends _ _ _ _).widen (by simp)) fun a => ?_
  split
  · trivial
  refine allSent_bind ((aes.changeFileSettingsSdmEx_sends _ _ _ _ _ _ _ _ _ _ _ _ _).widen
    (by simp)) fun c => ?_
  split
  · trivial
  refine allSent_bind ((writeNdefFilePlainEx_sends _).widen (by simp)) fun w => ?_
  split
  · trivial
  refine allSent_bind ((getFileSettingsPlainEx_sends _ _).widen (by simp)) fun p => ?_
  split
  · trivial
  exact allSent_bind ((aes.getFileSettingsSecureEx_sends _ _ _).widen (by simp)) fun _ => trivial

theorem mainCounterReads_sends (o : MainOptions) (ck : CounterKey) (fsPlainFailed : Bool)
    (rndA : Block) :
    (aes.mainCounterReads o ck fsPlainFailed rndA).AllSent (ApduOf [0x71, 0xAF, 0xF5, 0xF6]) := by
  unfold mainCounterReads
  refine allSent_bind ((getSdmReadCounterEx_sends _).widen (by simp)) fun pc => ?_
  refine allSent_bind ((aes.authenticateEv2FirstEx_sends _ _ _ _).widen (by simp)) fun a => ?_
  split
  · trivial
  refine allSent_bind (x := if fsPlainFailed = true then _ else _) ?_ fun sess => ?_
  · split
    · exact allSent_bind ((aes.getFileSettingsSecureEx_sends _ _ _).widen (by simp))
        fun _ => trivial
    · trivial
  · exact allSent_bind ((aes.secureReadCounterEx_sends _ _).widen (by simp)) fun _ => trivial

theorem mainKeyBlocks_allSent {P : List Byte → Prop} (o : MainOptions) (i : MainInputs)
    (hprov : o.doProvision = true →
      (aes.mainProvision o i.provisionKey i.rndProvision).AllSent P)
    (hrot : o.doRotateKey = true →
      ∀ ck, (aes.mainRotate o ck i.rotateOldKey i.rotateNewKey i.rndRotate).AllSent P) :
    (aes.mainKeyBlocks o i).AllSent P := by
  unfold mainKeyBlocks
  refine allSent_bind (x := if o.doProvision = true then _ else _) ?_ fun ck => ?_
  · split
    · exact hprov ‹_›
    · trivial
  split
  · trivial
  split
  · exact hrot ‹_› _
  · trivial

theorem mainSdmAndCounters_sends (o : MainOptions) (i : MainInputs) (fsInfo : FileSettingsInfo)
    (fsPlainFailed : Bool) (ck : CounterKey) :
    (aes.mainSdmAndCounters o i fsInfo fsPlainFailed ck).AllSent
      (ApduOf [0x71, 0xAF, 0x5F, 0xA4, 0xD6, 0xF5, 0xF6]) := by
  unfold mainSdmAndCounters
  refine allSent_bind (x := if o.doSdmSetup = true then _ else _) ?_ fun sdmOk => ?_
  · split
    · exact (aes.mainSdmSetup_sends _ _ _).widen (by simp)
    · trivial
  split
  · trivial
  exact allSent_bind ((aes.mainCounterReads_sends _ _ _ _).widen (by simp)) fun _ => trivial

theorem mainCardPhase_allSent {P : List Byte → Prop} (o : MainOptions) (i : MainInputs)
    (hfs : (getFileSettingsPlainEx o.counterFileNo mainFsDataLen).AllSent P)
    (hkeys : (aes.mainKeyBlocks o i).AllSent P)
    (hrest : ∀ fsInfo fsPlainFailed ck,
      (aes.mainSdmAndCounters o i fsInfo fsPlainFailed ck).AllSent P) :
    (aes.mainCardPhase o i).AllSent P := by
  unfold mainCardPhase
  refine allSent_bind hfs fun p => allSent_bind hkeys fun ck => ?_
  split
  · trivial
  · exact hrest _ _ _

/-- every APDU of the card phase is a short APDU with one of eight `INS` bytes -/
theorem mainCardPhase_shortApdus (o : MainOptions) (i : MainInputs) :
    (aes.mainCardPhase o i).AllSent (ApduOf mainIns) := by
  have hauth : ∀ key keyNo rndA sess,
      (aes.authenticateEv2FirstEx key keyNo rndA sess).AllSent (ApduOf mainIns) :=
    fun _ _ _ _ => (aes.authenticateEv2FirstEx_sends _ _ _ _).widen (by simp [mainIns])
  have hck : ∀ keyNo s oldKey newKey,
      (aes.changeKeyEx s keyNo oldKey newKey 0x01).AllSent (ApduOf mainIns) :=
    fun _ _ _ _ => (aes.changeKeyEx_sends _ _ _ _ _).widen (by simp [mainIns])
  exact aes.mainCardPhase_allSent o i
    ((getFileSettingsPlainEx_sends _ _).widen (by simp [mainIns]))
    (aes.mainKeyBlocks_allSent o i (fun _ => aes.mainProvision_allSent o _ _ (hauth _ _ _ _)
      (hck _)) fun _ _ => aes.mainRotate_allSent o _ _ _ _ (hauth _ _ _ _) (hck _))
    fun _ _ _ => (aes.mainSdmAndCounters_sends _ _ _ _ _).widen (by simp [mainIns])

theorem mainCardPhase_changeKeyFor (o : MainOptions) (i : MainInputs) {ok : Byte → Prop}
    (hp : o.doProvision = true → ok o.newKeyNo) (hr : o.doRotateKey = true → ok o.rotateKeyNo) :
    (aes.mainCardPhase o i).AllSent (ChangeKeyFor ok) := by
  have hauth : ∀ key keyNo rndA sess,
      (aes.authenticateEv2FirstEx key keyNo rndA sess).AllSent (ChangeKeyFor ok) :=
    fun _ _ _ _ => (aes.authenticateEv2FirstEx_sends _ _ _ _).changeKeyFor (by decide) _
  exact aes.mainCardPhase_allSent o i ((getFileSettingsPlainEx_sends _ _).changeKeyFor
    (by decide) _)
    (aes.mainKeyBlocks_allSent o i
      (fun h => aes.mainProvision_allSent o _ _ (hauth _ _ _ _) fun _ _ _ =>
        (aes.changeKeyEx_keyNo _ _ _ _ _).mono fun _ he _ => he ▸ hp h)
      fun h _ => aes.mainRotate_allSent o _ _ _ _ (hauth _ _ _ _) fun _ _ _ =>
        (aes.changeKeyEx_keyNo _ _ _ _ _).mono fun _ he _ => he ▸ hr h)
    fun _ _ _ => (aes.mainSdmAndCounters_sends _ _ _ _ _).changeKeyFor (by decide) _

/-- ChangeKey is sent only for the key numbers the options name -/
theorem mainCardPhase_changeKeyNo (o : MainOptions) (i : MainInputs) :
    (aes.mainCardPhase o i).AllSent (ChangeKeyFor fun k =>
      (o.doProvision = true ∧ k = o.newKeyNo) ∨ (o.doRotateKey = true ∧ k = o.rotateKeyNo)) :=
  aes.mainCardPhase_changeKeyFor o i (fun h => .inl ⟨h, rfl⟩) fun h => .inr ⟨h, rfl⟩

theorem mainSdmAndCounters_sends_of_not_sdmSetup (o : MainOptions) (i : MainInputs)
    (fsInfo : FileSettingsInfo) (fsPlainFailed : Bool) (ck : CounterKey)
    (hs : o.doSdmSetup = false) :
    (aes.mainSdmAndCounters o i fsInfo fsPlainFailed ck).AllSent
      (ApduOf [0x71, 0xAF, 0xF5, 0xF6]) := by
  unfold mainSdmAndCounters
  rw [hs]
  refine allSent_bind (x := if false = true then _ else _) trivial fun sdmOk => ?_
  split
  · trivial
  · exact allSent_bind (aes.mainCounterReads_sends _ _ _ _) fun _ => trivial

/-- without `--provision`, `--rotate-key` and `--sdm-setup` the card phase only reads -/
theorem mainCardPhase_readOnly (o : MainOptions) (i : MainInputs) (hp : o.doProvision = false)
    (hr : o.doRotateKey = false) (hs : o.doSdmSetup = false) :
    (aes.mainCardPhase o i).AllSent (ApduOf [0x71, 0xAF, 0xF5, 0xF6]) ∧
      ∀ st : Picc ω, ((aes.mainCardPhase o i).run (aes.piccKeyStep nonce app plain) st).1.keys =
        st.keys := by
  have h := aes.mainCardPhase_allSent o i ((getFileSettingsPlainEx_sends _ _).widen (by simp))
    (aes.mainKeyBlocks_allSent o i (fun h => absurd (hp ▸ h) Bool.false_ne_true)
      fun h => absurd (hr ▸ h) Bool.false_ne_true)
    fun _ _ _ => aes.mainSdmAndCounters_sends_of_not_sdmSetup o i _ _ _ hs
  exact ⟨h, aes.run_keys nonce app plain (by decide) h⟩

/-- the options' defaults, under the identity cipher -/
theorem mainCardPhase_readOnly_defaults :
    let o : MainOptions := ⟨0, 0, 2, false, 1, false, 1, false, 1, ⟨[], by simp⟩, by decide⟩
    let i : MainInputs := ⟨none, none, none, 0, 0, 0, 0⟩
    o.doProvision = false ∧ o.doRotateKey = false ∧ o.doSdmSetup = false ∧
    (ident.mainCardPhase o i).AllSent (ApduOf [0x71, 0xAF, 0xF5, 0xF6]) ∧
      ∀ st : Picc Unit, ((ident.mainCardPhase o i).run
        (ident.piccKeyStep (fun _ => (0, 0, 0)) (fun u _ _ _ => (u, 0x00, []))
          (fun u _ => (u, none))) st).1.keys = st.keys :=
  ⟨rfl, rfl, rfl, mainCardPhase_readOnly ident _ _ _ _ _ rfl rfl rfl⟩

/-! ### `counter_key` and the card's keys -/

theorem run_mainProvision (st : Picc ω) (o : MainOptions) (hno : o.newKeyNo ≤ 0x0F)
    (newKey rndA : Block) (hkey : st.keys o.keyNo = o.key) :
    let r := (aes.mainProvision o (some newKey) rndA).run (aes.piccKeyStep nonce app plain) st
    r.2 = some ⟨newKey, o.newKeyNo⟩ ∧
      r.1.keys = (piccChangeKey st.keys o.newKeyNo (changeKeyData 0 newKey 0x01)).getD st.keys := by
  simp only [mainProvision, BitVec.not_lt.2 hno, if_false]
  rw [run_bind, run_authenticateEv2FirstEx aes nonce app plain st _ _ _ _ hkey]
  simp only [Bool.not_true, if_false, Bool.false_eq_true, run_bind]
  rw [aes.run_changeKeyEx nonce app plain _ _ rfl rfl]
  split <;> next heq => simp only at heq; rw [heq, changeKey_piccAnswer aes _ rfl]; simp

theorem run_mainRotate (st : Picc ω) (o : MainOptions) (ck : CounterKey)
    (hno : o.rotateKeyNo ≤ 0x0F) (oldKey newKey rndA : Block) (hkey : st.keys o.keyNo = o.key) :
    let r := (aes.mainRotate o ck (some oldKey) (some newKey) rndA).run
      (aes.piccKeyStep nonce app plain) st
    r.2 = some (if o.rotateKeyNo = ck.keyNo then { ck with key := newKey } else ck) ∧
      r.1.keys = (piccChangeKey st.keys o.rotateKeyNo (changeKeyData oldKey newKey 0x01)).getD
        st.keys := by
  simp only [mainRotate, BitVec.not_lt.2 hno, if_false]
  rw [run_bind, run_authenticateEv2FirstEx aes nonce app plain st _ _ _ _ hkey]
  simp only [Bool.not_true, if_false, Bool.false_eq_true, run_bind]
  rw [aes.run_changeKeyEx nonce app plain _ _ rfl rfl]
  split <;> next heq => simp only at heq; rw [heq, changeKey_piccAnswer aes _ rfl]; simp

theorem mainProvision_holds (st : Picc ω) (o : MainOptions) (newKey : Option Block)
    (rndA : Block) (hkey : st.keys o.keyNo = o.key) (hzero : st.keys o.newKeyNo = 0) :
    ∀ ck, ((aes.mainProvision o newKey rndA).run (aes.piccKeyStep nonce app plain) st).2 =
        some ck →
      ((aes.mainProvision o newKey rndA).run (aes.piccKeyStep nonce app plain) st).1.keys
        ck.keyNo = ck.key := by
  intro ck hres
  by_cases hno : o.newKeyNo ≤ 0x0F
  · cases newKey with
    | none => simp [mainProvision, BitVec.not_lt.2 hno] at hres
    | some newKey =>
      obtain ⟨h2, hk⟩ := aes.run_mainProvision nonce app plain st o hno newKey rndA hkey
      cases h2.symm.trans hres
      simp [hk, piccChangeKey, hzero, changeKeyDecode_changeKeyData]
  · unfold mainProvision at hres
    rw [if_pos (BitVec.not_le.1 hno)] at hres
    cases hres

theorem mainRotate_holds (st : Picc ω) (o : MainOptions) (ck : CounterKey)
    (oldKey newKey : Option Block) (rndA : Block) (hkey : st.keys o.keyNo = o.key)
    (hck : st.keys ck.keyNo = ck.key)
    (hold : ∀ k, oldKey = some k → st.keys o.rotateKeyNo = k) :
    ∀ ck', ((aes.mainRotate o ck oldKey newKey rndA).run (aes.piccKeyStep nonce app plain)
        st).2 = some ck' →
      ((aes.mainRotate o ck oldKey newKey rndA).run (aes.piccKeyStep nonce app plain)
        st).1.keys ck'.keyNo = ck'.key := by
  intro ck' hres
  by_cases hno : o.rotateKeyNo ≤ 0x0F
  · match oldKey, newKey, hold, hres with
    | some oldKey, some newKey, hold, hres =>
      obtain ⟨h2, hk⟩ := aes.run_mainRotate nonce app plain st o ck hno oldKey newKey rndA hkey
      cases h2.symm.trans hres
      simp only [hk, piccChangeKey, hold oldKey rfl, changeKeyDecode_changeKeyData,
        Option.map_some', Option.getD_some]
      by_cases heq : o.rotateKeyNo = ck.keyNo
      · rw [if_pos heq]; dsimp only; rw [← heq, Function.update_same]
      · rw [if_neg heq, Function.update_noteq (Ne.symm heq), hck]
    | none, _, _, hres => simp [mainRotate, BitVec.not_lt.2 hno] at hres
    | some _, none, _, hres => simp [mainRotate, BitVec.not_lt.2 hno] at hres
  · unfold mainRotate at hres
    rw [if_pos (BitVec.not_le.1 hno)] at hres
    cases hres

/-- a MAC-checked refusal of ChangeKey passes as success -/
theorem mainProvision_refused (st : Picc ω) (o : MainOptions) (hno : o.newKeyNo ≤ 0x0F)
    (newKey rndA : Block) (hkey : st.keys o.keyNo = o.key)
    (hbad : changeKeyDecode (st.keys o.newKeyNo) (changeKeyData 0 newKey 0x01) = none) :
    let r := (aes.mainProvision o (some newKey) rndA).run (aes.piccKeyStep nonce app plain) st
    r.2 = some ⟨newKey, o.newKeyNo⟩ ∧ r.1.keys = st.keys := by
  obtain ⟨h2, hk⟩ := aes.run_mainProvision nonce app plain st o hno newKey rndA hkey
  exact ⟨h2, by rw [hk, piccChangeKey, hbad]; rfl⟩

/-- key 1 of a card that holds `11…11` there refused, under the identity cipher -/
theorem mainProvision_refused_key1 :
    let st : Picc Unit :=
      ⟨fun k => if k = 1 then Bytes.ofList (List.replicate 16 0x11) else 0, .idle, 0, ()⟩
    let o : MainOptions := ⟨0, 0, 2, true, 1, false, 1, false, 1, ⟨[], by simp⟩, by decide⟩
    o.newKeyNo ≤ 0x0F ∧ st.keys o.keyNo = o.key ∧
    changeKeyDecode (st.keys o.newKeyNo) (changeKeyData 0 0 0x01) = none ∧
    let r := (ident.mainProvision o (some 0) 0).run
      (ident.piccKeyStep (fun _ => (0, 0, 0)) (fun u _ _ _ => (u, 0x00, [])) (fun u _ => (u, none)))
      st
    r.2 = some ⟨0, o.newKeyNo⟩ ∧ r.1.keys = st.keys :=
  have hbad : changeKeyDecode (Bytes.ofList (List.replicate 16 0x11)) (changeKeyData 0 0 0x01) =
      none := by
    set_option maxRecDepth 4000 in decide
  ⟨by decide, rfl, hbad, mainProvision_refused ident _ _ _ _ _ (by decide) 0 0 rfl hbad⟩

theorem mainKeyBlocks_holds (st : Picc ω) (o : MainOptions) (i : MainInputs)
    (hkey : st.keys o.keyNo = o.key) (hprov : o.doProvision = true → st.keys o.newKeyNo = 0)
    (hrot : o.doRotateKey = true → ∀ k, i.rotateOldKey = some k → st.keys o.rotateKeyNo = k) :
    ∀ ck, ((aes.mainKeyBlocks o i).run (aes.piccKeyStep nonce app plain) st).2 = some ck →
      ((aes.mainKeyBlocks o i).run (aes.piccKeyStep nonce app plain) st).1.keys ck.keyNo =
        ck.key := by
  unfold mainKeyBlocks
  rw [run_bind]
  cases hp : o.doProvision
  · simp only [Bool.false_eq_true, if_false, pure_eq, run_done]
    split
    · exact aes.mainRotate_holds nonce app plain st o ⟨o.key, o.keyNo⟩ _ _ _ hkey hkey
        (hrot ‹_›)
    · intro ck h
      simp only [pure_eq, run_done, Option.some.injEq] at h
      exact h ▸ hkey
  · have hr : o.doRotateKey = false := by
      cases h : o.doRotateKey
      · rfl
      · exact absurd ⟨hp, h⟩ o.exclusive
    have hholds := aes.mainProvision_holds nonce app plain st o i.provisionKey i.rndProvision
      hkey (hprov hp)
    simp only [if_true]
    revert hholds
    generalize (aes.mainProvision o i.provisionKey i.rndProvision).run
      (aes.piccKeyStep nonce app plain) st = r
    rcases r with ⟨st1, _ | ck⟩
    · simp
    · simp only [hr, Bool.false_eq_true, if_false, pure_eq, run_done]
      exact id

theorem mainCounterReads_finalAuth (st : Picc ω) (o : MainOptions) (ck : CounterKey)
    (fsPlainFailed : Bool) (rndA : Block) (hck : st.keys ck.keyNo = ck.key) :
    let r := (aes.mainCounterReads o ck fsPlainFailed rndA).run
      (aes.piccKeyStep nonce app plain) st
    r.2.finalAuth.ok = true ∧ r.2.counterKey = ck ∧ r.1.keys = st.keys := by
  have h0 := aes.run_keys nonce app plain (by decide) (getSdmReadCounterEx_sends o.counterFileNo)
    st
  unfold mainCounterReads
  rw [run_bind]
  revert h0
  generalize (getSdmReadCounterEx o.counterFileNo).run (aes.piccKeyStep nonce app plain) st = r0
  rcases r0 with ⟨st0, pc⟩
  intro h0
  rw [run_bind, run_authenticateEv2FirstEx aes nonce app plain st0 _ _ _ _ (by rw [h0, hck])]
  simp only [Bool.not_true, Bool.false_eq_true, if_false, run_bind, pure_eq, run_done, true_and]
  have hsess : ∀ s s' : Session, AllSent (ApduOf [0xF5]) (if fsPlainFailed = true then
      aes.getFileSettingsSecureEx s o.counterFileNo mainFsDataLen >>= (fun q => done q.sess)
      else done s') := by
    intro s s'
    split
    · exact allSent_bind (aes.getFileSettingsSecureEx_sends _ _ _) fun _ => trivial
    · trivial
  rw [aes.run_keys nonce app plain (by decide) (aes.secureReadCounterEx_sends _ _),
    aes.run_keys nonce app plain (by decide) (hsess _ _), ← h0]

theorem mainSdmAndCounters_finalAuth (st : Picc ω) (o : MainOptions) (i : MainInputs)
    (fsInfo : FileSettingsInfo) (fsPlainFailed : Bool) (ck : CounterKey)
    (hck : st.keys ck.keyNo = ck.key) :
    ∀ e, ((aes.mainSdmAndCounters o i fsInfo fsPlainFailed ck).run
        (aes.piccKeyStep nonce app plain) st).2 = some e →
      e.finalAuth.ok = true ∧ ((aes.mainSdmAndCounters o i fsInfo fsPlainFailed ck).run
        (aes.piccKeyStep nonce app plain) st).1.keys e.counterKey.keyNo = e.counterKey.key := by
  have hsdm : AllSent (ApduOf [0x71, 0xAF, 0x5F, 0xA4, 0xD6, 0xF5])
      (if o.doSdmSetup = true then aes.mainSdmSetup o fsInfo i.rndSdm else pure true) := by
    split
    · exact aes.mainSdmSetup_sends _ _ _
    · trivial
  have h1 := aes.run_keys nonce app plain (by decide) hsdm st
  unfold mainSdmAndCounters
  rw [run_bind]
  revert h1
  generalize (if o.doSdmSetup = true then aes.mainSdmSetup o fsInfo i.rndSdm else pure true).run
    (aes.piccKeyStep nonce app plain) st = r1
  rcases r1 with ⟨st1, _ | _⟩ <;> intro h1
  · simp
  · obtain ⟨hauth, hcounter, hkeys⟩ := aes.mainCounterReads_finalAuth nonce app plain st1 o ck
      fsPlainFailed i.rndFinal (by rw [h1, hck])
    simp only [Bool.not_true, Bool.false_eq_true, if_false, run_bind, pure_eq, run_done,
      Option.some.injEq]
    rintro e rfl
    exact ⟨hauth, by rw [hcounter, hkeys, h1, hck]⟩

/-- `main` keeps `counter_key` in step with the card; with `new_key_no` or `rotate_key_no` equal to
`key_no` this rests on the card reading that ChangeKey as any other -/
theorem mainCardPhase_finalAuth (o : MainOptions) (i : MainInputs) (st : Picc ω)
    (hkey : st.keys o.keyNo = o.key) (hprov : o.doProvision = true → st.keys o.newKeyNo = 0)
    (hrot : o.doRotateKey = true → ∀ k, i.rotateOldKey = some k → st.keys o.rotateKeyNo = k) :
    ∀ e, ((aes.mainCardPhase o i).run (aes.piccKeyStep nonce app plain) st).2 = some e →
      e.finalAuth.ok = true ∧ ((aes.mainCardPhase o i).run (aes.piccKeyStep nonce app plain)
        st).1.keys e.counterKey.keyNo = e.counterKey.key := by
  have h0 := aes.run_keys nonce app plain (by decide)
    (getFileSettingsPlainEx_sends o.counterFileNo mainFsDataLen) st
  unfold mainCardPhase
  rw [run_bind]
  revert h0
  generalize (getFileSettingsPlainEx o.counterFileNo mainFsDataLen).run
    (aes.piccKeyStep nonce app plain) st = r0
  rcases r0 with ⟨st0, p⟩
  intro h0
  have hk := aes.mainKeyBlocks_holds nonce app plain st0 o i (by rw [h0, hkey])
    (fun h => by rw [h0, hprov h]) (fun h k hk => by rw [h0, hrot h k hk])
  dsimp only
  rw [run_bind]
  revert hk
  generalize (aes.mainKeyBlocks o i).run (aes.piccKeyStep nonce app plain) st0 = r1
  rcases r1 with ⟨st1, _ | ck⟩ <;> intro hk
  · simp
  · exact aes.mainSdmAndCounters_finalAuth nonce app plain st1 o i _ _ ck (hk ck rfl)

/-- `--provision` of key 1 on a card with the zero key everywhere, under the identity cipher -/
theorem mainCardPhase_finalAuth_provision :
    let o : MainOptions := ⟨0, 0, 2, true, 1, false, 1, true, 1, ⟨[], by simp⟩, by decide⟩
    let i : MainInputs := ⟨some (Bytes.ofList (List.replicate 16 0x11)), none, none, 0, 0, 0, 0⟩
    let st : Picc Unit := ⟨fun _ => 0, .idle, 0, ()⟩
    let card := ident.piccKeyStep (fun _ => (0, 0, 0)) (fun u _ _ _ => (u, 0x00, []))
      (fun u _ => (u, none))
    st.keys o.keyNo = o.key ∧ (o.doProvision = true → st.keys o.newKeyNo = 0) ∧
    (o.doRotateKey = true → ∀ k, i.rotateOldKey = some k → st.keys o.rotateKeyNo = k) ∧
    ∀ e, ((ident.mainCardPhase o i).run card st).2 = some e →
      e.finalAuth.ok = true ∧
        ((ident.mainCardPhase o i).run card st).1.keys e.counterKey.keyNo = e.counterKey.key :=
  ⟨rfl, fun _ => rfl, fun h => absurd h (by decide),
    mainCardPhase_finalAuth ident _ _ _ _ _ _ rfl (fun _ => rfl) (fun h => absurd h (by decide))⟩

end BlockCipher

end Ntag424

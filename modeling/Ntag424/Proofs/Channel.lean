import Ntag424.Proofs.Auth
import Ntag424.Proofs.Commands

/-! The secure channel between the host and a card. The card's side of EV2-First and of
communication mode Full is the one the host expects. The card answers part 1 under the key part 1
names and accepts part 2 when it carries its own nonce rotated. It takes a command when the
MAC over `INS ‖ CmdCtr ‖ TI ‖ H ‖ E` checks, hands the plaintext to its application, and
answers under the next counter. Against such a card holding the host's key, the handshake
leaves host and card in one session. From a shared session, any run of commands that fit a
short APDU refines the application called directly: the host gets the application's answers
call by call, and both sessions move on together. -/

namespace Ntag424

/-! ### EV2-First -/

namespace BlockCipher

variable (aes : BlockCipher)

/-- the card's answer to part 1 of EV2-First under its key `K` and with its nonce `RndB`:
`E(K, RndB) ‖ 91 AF` -/
def piccAuth1 (key rndB : Block) : List Byte := aes.cbcEncrypt key 1 0 rndB.toList ++ [0x91, 0xAF]

/-- the card on part 2, `90 AF 00 00 20 ‖ E(K, RndA ‖ RndB') ‖ 00`: when `RndB'` is its `RndB`
rotated left, the answer `E(K, TI ‖ rotl1 RndA ‖ PDcap2 ‖ PCDcap2) ‖ 91 00`, and the session
of `RndA`, `RndB` and `TI` for key `keyNo` at counter 0 -/
def piccAuth2 (key : Block) (keyNo : Byte) (rndB : Block) (ti : Bytes 4) (caps : Bytes 12)
    (apdu : List Byte) : Option (List Byte × Session) :=
  let d := aes.cbcDecrypt key 2 0 ((apdu.drop 5).take 32)
  let rndA : Block := Bytes.ofList (d.take 16)
  if apdu.take 5 = [0x90, 0xAF, 0x00, 0x00, 0x20] ∧ apdu.length = 38 ∧
      d.drop 16 = rotateLeft1 rndB.toList then
    some (aes.cbcEncrypt key 2 0 (ti.toList ++ rotateLeft1 rndA.toList ++ caps.toList) ++
        [0x91, 0x00],
      ⟨aes.aesCmac key (svPrefix1 ++ svTail rndA rndB),
        aes.aesCmac key (svPrefix2 ++ svTail rndA rndB), ti, 0, keyNo, true⟩)
  else none

/-- `authenticate_ev2_first` against a card that holds `keys`: part 1 names the key, the card
answers under it, and part 2 goes to the card; the host's result and the card's session -/
def channelOpen (keys : Byte → Block) (key : Block) (keyNo : Byte) (rndA rndB : Block)
    (ti : Bytes 4) (caps : Bytes 12) (sess : Session) : AuthResult × Option Session :=
  let cardKey := keys ((ev2FirstApdu1 keyNo).getD 5 0)
  let r1 := aes.piccAuth1 cardKey rndB
  let sent := (aes.authenticateEv2First key keyNo rndA (some r1) none sess).sent
  let card := aes.piccAuth2 cardKey ((ev2FirstApdu1 keyNo).getD 5 0) rndB ti caps (sent.getD 1 [])
  (aes.authenticateEv2First key keyNo rndA (some r1) (card.map Prod.fst) sess, card.map Prod.snd)

theorem piccAuth2_ev2FirstApdu2 (key : Block) (keyNo : Byte) (rndA rndB : Block) (ti : Bytes 4)
    (caps : Bytes 12) :
    aes.piccAuth2 key keyNo rndB ti caps (ev2FirstApdu2 (aes.cbcEncrypt key 2 0
      (rndA.toList ++ rotateLeft1 rndB.toList))) = some
        (aes.cbcEncrypt key 2 0 (ti.toList ++ rotateLeft1 rndA.toList ++ caps.toList) ++
          [0x91, 0x00],
        ⟨aes.aesCmac key (svPrefix1 ++ svTail rndA rndB),
          aes.aesCmac key (svPrefix2 ++ svTail rndA rndB), ti, 0, keyNo, true⟩) := by
  have hAB : (rndA.toList ++ rotateLeft1 rndB.toList).length = 16 * 2 := by simp
  have hlen := length_cbcEncrypt aes key 2 0 (rndA.toList ++ rotateLeft1 rndB.toList)
  have hbody : ((ev2FirstApdu2 (aes.cbcEncrypt key 2 0 (rndA.toList ++
      rotateLeft1 rndB.toList))).drop 5).take 32 =
      aes.cbcEncrypt key 2 0 (rndA.toList ++ rotateLeft1 rndB.toList) := by
    rw [ev2FirstApdu2, List.append_assoc,
      @List.drop_left' _ ([0x90, 0xAF, 0x00, 0x00, 0x20] : List Byte) _ 5 rfl,
      List.take_left' (by rw [hlen])]
  have hA : (rndA.toList ++ rotateLeft1 rndB.toList).take 16 = rndA.toList :=
    List.take_left' (by simp)
  have hB : (rndA.toList ++ rotateLeft1 rndB.toList).drop 16 = rotateLeft1 rndB.toList :=
    List.drop_left' (by simp)
  rw [piccAuth2]
  simp only [hbody, cbcDecrypt_cbcEncrypt aes key 2 0 _ hAB, hA, hB, Bytes.ofList_toList]
  rw [if_pos (by simp [ev2FirstApdu2, hlen])]

/-- the host against a card that answers as EV2-First says succeeds with the card's session -/
theorem authenticateEv2First_picc (key : Block) (keyNo : Byte) (rndA rndB : Block)
    (ti : Bytes 4) (caps : Bytes 12) (sess : Session) :
    aes.authenticateEv2First key keyNo rndA (some (aes.piccAuth1 key rndB))
      (some (aes.cbcEncrypt key 2 0 (ti.toList ++ rotateLeft1 rndA.toList ++ caps.toList) ++
        [0x91, 0x00])) sess =
      ⟨true, ⟨aes.aesCmac key (svPrefix1 ++ svTail rndA rndB),
          aes.aesCmac key (svPrefix2 ++ svTail rndA rndB), ti, 0, keyNo, true⟩,
        [ev2FirstApdu1 keyNo, ev2FirstApdu2 (aes.cbcEncrypt key 2 0
          (rndA.toList ++ rotateLeft1 rndB.toList))]⟩ := by
  simp only [authenticateEv2First, piccAuth1, ev2FirstPart1_honest, ev2FirstPart2_honest]

/-- with the host's key on the card, the handshake gives host and card one session -/
theorem channelOpen_spec (keys : Byte → Block) (key : Block) (keyNo : Byte)
    (hkey : keys keyNo = key) (rndA rndB : Block) (ti : Bytes 4) (caps : Bytes 12)
    (sess : Session) :
    let o := aes.channelOpen keys key keyNo rndA rndB ti caps sess
    o.1.ok = true ∧ o.2 = some o.1.sess ∧ o.1.sess.authenticated = true ∧
      o.1.sess.cmdCtr = 0 ∧ o.1.sess.ti = ti ∧ o.1.sess.keyNo = keyNo := by
  have hsent : (aes.authenticateEv2First key keyNo rndA (some (aes.piccAuth1 key rndB)) none
      sess).sent.getD 1 [] = ev2FirstApdu2 (aes.cbcEncrypt key 2 0
        (rndA.toList ++ rotateLeft1 rndB.toList)) := by
    simp only [authenticateEv2First, piccAuth1, ev2FirstPart1_honest]
    split <;> rfl
  have hkeyNo : (ev2FirstApdu1 keyNo).getD 5 0 = keyNo := rfl
  simp only [channelOpen, hkeyNo, hkey, hsent, piccAuth2_ev2FirstApdu2, Option.map_some',
    authenticateEv2First_picc, and_self]

/-- a card holding the zero key under every key number, under the identity cipher -/
theorem channelOpen_spec_zeroKey :
    (fun _ => (0 : Block)) (0 : Byte) = 0 ∧
    let o := ident.channelOpen (fun _ => 0) 0 0 0 0 0 0 ⟨0, 0, 0, 0, 0, false⟩
    o.1.ok = true ∧ o.2 = some o.1.sess ∧ o.1.sess.authenticated = true ∧
      o.1.sess.cmdCtr = 0 ∧ o.1.sess.ti = 0 ∧ o.1.sess.keyNo = 0 :=
  ⟨rfl, channelOpen_spec ident (fun _ => 0) 0 0 rfl 0 0 0 0 _⟩

end BlockCipher

/-! ### Communication mode Full -/

/-- a command of the host: `INS`, header, data and the size of the caller's buffer -/
structure ChanCall where
  cmd : Byte
  header : List Byte
  data : List Byte
  outCap : Nat

/-- the same calls made on the application directly: its status bytes and data, and its
final state -/
def idealRun {σ : Type}
    (app : σ → Byte → List Byte → List Byte → σ × Byte × List Byte) :
    σ → List ChanCall → List (Byte × List Byte) × σ
  | st, [] => ([], st)
  | st, c :: calls =>
    let r := app st c.cmd c.header c.data
    let rest := idealRun app r.1 calls
    ((r.2.1, r.2.2) :: rest.1, rest.2)

/-- a call the channel carries: the header the card expects, the data within a short APDU,
and an answer within the caller's buffer and the transport's -/
def ChanCall.Fits (hdrLen : Byte → Nat) (c : ChanCall) (r : Byte × List Byte) : Prop :=
  c.header.length = hdrLen c.cmd ∧ c.header.length + 16 * (c.data.length / 16 + 1) + 8 ≤ 255 ∧
    r.2.length ≤ c.outCap ∧ r.2.length ≤ 495

instance (hdrLen : Byte → Nat) (c : ChanCall) (r : Byte × List Byte) :
    Decidable (c.Fits hdrLen r) :=
  inferInstanceAs (Decidable (c.header.length = hdrLen c.cmd ∧
    c.header.length + 16 * (c.data.length / 16 + 1) + 8 ≤ 255 ∧ r.2.length ≤ c.outCap ∧
    r.2.length ≤ 495))

namespace BlockCipher

variable (aes : BlockCipher) {σ : Type} (hdrLen : Byte → Nat)
  (app : σ → Byte → List Byte → List Byte → σ × Byte × List Byte)

/-- the card's reading of a Full-mode command `90 INS 00 00 Lc ‖ H ‖ E ‖ MACt ‖ Le` under
its session, `INS` taking `hdrLen INS` header bytes: the command, the header and the plaintext
of `E`, when `Lc` covers the body and the MAC over `INS ‖ CmdCtr ‖ TI ‖ H ‖ E` checks -/
def piccCommand (s : Session) : List Byte → Option (Byte × List Byte × List Byte)
  | cla :: ins :: p1 :: p2 :: lc :: rest =>
    let n := lc.toNat
    let h := rest.take (hdrLen ins)
    let enc := (rest.take (n - 8)).drop (hdrLen ins)
    if cla = 0x90 ∧ p1 = 0x00 ∧ p2 = 0x00 ∧ rest.length = n + 1 ∧ hdrLen ins + 8 ≤ n ∧
        (rest.take n).drop (n - 8) =
          cmacTruncate8 (aes.aesCmac s.kmac (ins :: le16 s.cmdCtr ++ s.ti.toList ++ h ++ enc))
    then some (ins, h, aes.cardCmdData s enc) else none
  | _ => none

theorem piccCommand_wrapped (s : Session) (ins : Byte) (h e : List Byte)
    (hh : h.length = hdrLen ins) (hlc : h.length + e.length + 8 ≤ 255) :
    aes.piccCommand hdrLen s
      ([0x90, ins, 0x00, 0x00, BitVec.ofNat 8 (h.length + e.length + 8)] ++ h ++ e ++
        cmacTruncate8 (aes.aesCmac s.kmac (ins :: le16 s.cmdCtr ++ s.ti.toList ++ h ++ e)) ++
        [0x00]) = some (ins, h, aes.cardCmdData s e) := by
  generalize hmac :
    cmacTruncate8 (aes.aesCmac s.kmac (ins :: le16 s.cmdCtr ++ s.ti.toList ++ h ++ e)) = m
  have hm : m.length = 8 := hmac ▸ length_cmacTruncate8 _
  have hn : (BitVec.ofNat 8 (h.length + e.length + 8)).toNat = h.length + e.length + 8 := by
    rw [BitVec.toNat_ofNat]; exact Nat.mod_eq_of_lt (by omega)
  -- the body is `H ‖ E ‖ MACt`, and `Le` follows it
  have hrest : h ++ e ++ m ++ [0x00] = (h ++ e) ++ (m ++ [0x00]) := by simp
  have hhe : (h ++ e).length = h.length + e.length := List.length_append _ _
  have hbody : (h ++ e ++ m ++ [0x00]).take (h.length + e.length + 8) = h ++ e ++ m := by
    rw [List.take_append_of_le_length (by simp [hm]; omega),
      List.take_of_length_le (by simp [hm]; omega)]
  have henc : (h ++ e ++ m ++ [0x00]).take (h.length + e.length) = h ++ e := by
    rw [hrest, List.take_append_of_le_length (by omega), List.take_of_length_le (by omega)]
  have hhead : (h ++ e ++ m ++ [0x00]).take h.length = h := by
    rw [List.append_assoc, List.append_assoc, List.take_left' rfl]
  simp only [List.cons_append, List.nil_append, piccCommand, hn, ← hh,
    show h.length + e.length + 8 - 8 = h.length + e.length by omega, hbody, henc, hhead,
    List.drop_left' hhe, List.drop_left' rfl]
  rw [if_pos ⟨trivial, trivial, trivial, by simp [hm]; omega, by omega, by
    rw [← hmac]; simp only [List.cons_append, List.append_assoc]⟩]

/-- the card's answer with status `91 SW2` and data `p`: `E(KENC, IVR, Pad(p))`, then the MAC
over `SW2 ‖ CmdCtr + 1 ‖ TI ‖ E` -/
def piccAnswer (s : Session) (sw2 : Byte) (p : List Byte) : List Byte :=
  let c := aes.fullCryptogram s.kenc (ivrIn s) p
  c ++ cmacTruncate8 (aes.aesCmac s.kmac (sw2 :: le16 (s.cmdCtr + 1) ++ s.ti.toList ++ c)) ++
    [0x91, sw2]

/-- the card on one APDU: outside a session `91 AE`; a command that checks out goes to the
application, whose status and data go back under the next counter; any other APDU gets
`91 1E` and ends the session -/
def piccStep (s : Session) (st : σ) (apdu : List Byte) : List Byte × Session × σ :=
  if s.authenticated = false then ([0x91, 0xAE], s, st) else
  match aes.piccCommand hdrLen s apdu with
  | none => ([0x91, 0x1E], { s with authenticated := false }, st)
  | some (ins, h, d) =>
    let r := app st ins h d
    (aes.piccAnswer s r.2.1 r.2.2, { s with cmdCtr := s.cmdCtr + 1 }, r.1)

/-- one `ssm_cmd_full` call against the card: the APDU the call transmits reaches the card,
and the card's answer is the transport's reply -/
def channelStep (hs cs : Session) (st : σ) (c : ChanCall) : SsmResult × Session × σ :=
  match (aes.ssmCmdFull hs c.cmd c.header c.data c.outCap none).apdu with
  | none => (aes.ssmCmdFull hs c.cmd c.header c.data c.outCap none, cs, st)
  | some apdu =>
    let r := aes.piccStep hdrLen app cs st apdu
    (aes.ssmCmdFull hs c.cmd c.header c.data c.outCap (some r.1), r.2.1, r.2.2)

/-- a run of calls: the host's results, and the host's session, the card's session and the
application's state at the end -/
def channelRun :
    Session → Session → σ → List ChanCall → List SsmResult × Session × Session × σ
  | hs, cs, st, [] => ([], hs, cs, st)
  | hs, cs, st, c :: calls =>
    let r := aes.channelStep hdrLen app hs cs st c
    let rest := channelRun r.1.sess r.2.1 r.2.2 calls
    (r.1 :: rest.1, rest.2)

/-- a call that fits, on the card's own session, goes through, both counters moving on -/
theorem channelStep_synced (s : Session) (hauth : s.authenticated = true) (st : σ)
    (c : ChanCall) (hfit : c.Fits hdrLen ((app st c.cmd c.header c.data).2.1,
      (app st c.cmd c.header c.data).2.2)) :
    let r := app st c.cmd c.header c.data
    aes.channelStep hdrLen app s s st c =
      (⟨true, { s with cmdCtr := s.cmdCtr + 1 }, aes.ssmWrap s c.cmd c.header c.data,
        some (swOf 0x91 r.2.1), some r.2.2⟩, { s with cmdCtr := s.cmdCtr + 1 }, r.1) := by
  intro r
  obtain ⟨hh, hlc, hout, h495⟩ : c.header.length = hdrLen c.cmd ∧
      c.header.length + 16 * (c.data.length / 16 + 1) + 8 ≤ 255 ∧ r.2.2.length ≤ c.outCap ∧
      r.2.2.length ≤ 495 := hfit
  have hlc' :
      c.header.length + (aes.fullCryptogram s.kenc (ivcIn s) c.data).length + 8 ≤ 255 := by
    rw [length_fullCryptogram]; split <;> omega
  have hw := aes.ssmWrap_eq s c.cmd c.header c.data hlc'
  have hc : (aes.fullCryptogram s.kenc (ivrIn s) r.2.2).length + 8 ≤ 510 := by
    rw [length_fullCryptogram]; split <;> omega
  rw [channelStep, ssmCmdFull_apdu aes hauth hw]
  dsimp only
  rw [piccStep, if_neg (by rw [hauth]; decide),
    piccCommand_wrapped aes hdrLen s c.cmd c.header (aes.fullCryptogram s.kenc (ivcIn s) c.data)
      hh (by omega), cardCmdData_fullCryptogram]
  simp only [piccAnswer]
  rw [ssmCmdFull_honest aes s hauth _ _ _ _ _ _ hlc' hout hc, hw]

theorem cmdCtr_add_one_add (x : BitVec 16) (n : Nat) :
    x + 1 + BitVec.ofNat 16 n = x + BitVec.ofNat 16 (n + 1) := by
  apply BitVec.eq_of_toNat_eq
  simp only [BitVec.toNat_add, BitVec.toNat_ofNat, show (1 : BitVec 16).toNat = 1 from rfl]
  omega

/-- the secure channel refines calling the application directly -/
theorem channelRun_idealRun (s : Session) (hauth : s.authenticated = true) (st : σ)
    (calls : List ChanCall)
    (hfits : List.Forall₂ (ChanCall.Fits hdrLen) calls (idealRun app st calls).1) :
    let run := aes.channelRun hdrLen app s s st calls
    let s' := { s with cmdCtr := s.cmdCtr + BitVec.ofNat 16 calls.length }
    run.1.map (fun r => (r.ok, r.sw, r.out)) =
      (idealRun app st calls).1.map (fun r => (true, some (swOf 0x91 r.1), some r.2)) ∧
    run.2.1 = s' ∧ run.2.2.1 = s' ∧ run.2.2.2 = (idealRun app st calls).2 := by
  induction calls generalizing s st with
  | nil =>
    simp only [channelRun, idealRun, List.map_nil, List.length_nil, BitVec.ofNat_eq_ofNat,
      BitVec.add_zero, and_self]
  | cons c calls ih =>
    simp only [idealRun, List.forall₂_cons] at hfits
    obtain ⟨hfit, hrest⟩ := hfits
    obtain ⟨hmap, hs, hc, hst⟩ := ih { s with cmdCtr := s.cmdCtr + 1 } hauth _ hrest
    simp only [channelRun, idealRun, aes.channelStep_synced hdrLen app s hauth st c hfit,
      List.map_cons, List.length_cons, hmap, hs, hc, hst, cmdCtr_add_one_add, and_self]

/-- two calls under the identity cipher to an application that echoes the data -/
theorem channelRun_idealRun_echo :
    let s : Session := ⟨0, 0, 0, 0x0041, 0, true⟩
    let app : Nat → Byte → List Byte → List Byte → Nat × Byte × List Byte :=
      fun n _ _ d => (n + 1, 0x00, d)
    let calls :=
      [ChanCall.mk 0xF6 [0x02] [] 16, ChanCall.mk 0xC4 [0x01] (List.replicate 21 0x5A) 32]
    s.authenticated = true ∧
    List.Forall₂ (ChanCall.Fits fun _ => 1) calls (idealRun app 0 calls).1 ∧
    let run := ident.channelRun (fun _ => 1) app s s 0 calls
    let s' := { s with cmdCtr := s.cmdCtr + BitVec.ofNat 16 calls.length }
    run.1.map (fun r => (r.ok, r.sw, r.out)) =
      (idealRun app 0 calls).1.map (fun r => (true, some (swOf 0x91 r.1), some r.2)) ∧
    run.2.1 = s' ∧ run.2.2.1 = s' ∧ run.2.2.2 = (idealRun app 0 calls).2 :=
  ⟨rfl, .cons (by decide) (.cons (by decide) .nil),
    channelRun_idealRun ident (fun _ => 1) _ _ rfl 0 _
      (.cons (by decide) (.cons (by decide) .nil))⟩

end BlockCipher

end Ntag424

import SerialPackets.Codec.CrcCheck
import SerialPackets.Codec.Packets

/-!
# Damage on the line

What becomes of a stream of packets when something happens to some of its bytes on the way. The
packets in front of the damage and those behind the next flag are reported as if nothing had
happened, whatever the damage is: bytes changed, dropped or put in, flags among them
(`filterMap_reports_noise`). What is reported in between is at most one packet for each flag.

Nothing is reported in between, so that exactly the damaged packet is missing, if the CRC is certain
to find the error (`filterMap_reports_smallError`), or if a single byte of the packet has changed on
the wire and no flag or escape byte is involved (`filterMap_reports_damagedByte`).
-/

namespace SerialPackets

open Framing

variable {cfg : Config} {ps qs : List (Bool × Packet (List UInt8))}

/-! ## Any damage -/

theorem length_decodedPackets_le_count (s : Receiver UInt8) (bytes : List UInt8) :
    (decodedPackets cfg s bytes).length ≤ bytes.count packetFlag :=
  (List.length_filterMap_le _ _).trans (Receiver.length_frames_le_count (S := hdlc) s bytes)

private theorem exists_decodedPackets_wires (s : Receiver UInt8)
    (hflag : ∀ q ∈ qs.head?, q.1 = true)
    (hdata : ∀ q ∈ qs, q.2.data.length ≤ cfg.maxPacketDataLen) :
    ∃ spurious, spurious.length ≤ 1 ∧
      decodedPackets cfg s (wires qs) = spurious ++ qs.map Prod.snd := by
  obtain _ | ⟨⟨preFlag, q⟩, qs⟩ := qs
  · exact ⟨[], Nat.zero_le 1, rfl⟩
  · obtain rfl : preFlag = true := hflag _ rfl
    have hwires : wires ((true, q) :: qs) = [packetFlag] ++ wires ((false, q) :: qs) := by
      rw [wires, wires, List.flatMap_cons, List.flatMap_cons, Packet.wire_true]
      rfl
    have hopened : Receiver.run hdlc cfg.maxPacketLen s [packetFlag] = .opened :=
      Receiver.run_concat_flag (S := hdlc) s []
    refine ⟨decodedPackets cfg s [packetFlag], length_decodedPackets_le_count s [packetFlag], ?_⟩
    rw [hwires, decodedPackets_append, hopened, decodedPackets_wires (Or.inl rfl)]
    · rfl
    · intro r hr
      rcases List.mem_cons.mp hr with rfl | hr
      · exact hdata (true, q) List.mem_cons_self
      · exact hdata r (List.mem_cons_of_mem _ hr)

/-- **Damage is contained.** Between two streams of packets let there be any bytes whatever, in
place of packets or in addition to them. If these end in a flag, or the second stream begins with
one, all packets of both streams are reported, in order, and in between at most one packet for each
flag. -/
theorem filterMap_reports_noise (d : SerialPacketsDecoder cfg) (noise : List UInt8)
    (hready : ReadyFor d.receiver ps)
    (hps : ∀ q ∈ ps, q.2.data.length ≤ cfg.maxPacketDataLen)
    (hqs : ∀ q ∈ qs, q.2.data.length ≤ cfg.maxPacketDataLen)
    (hresume : noise.getLast? = some packetFlag ∨ ∀ q ∈ qs.head?, q.1 = true) :
    ∃ spurious, spurious.length ≤ noise.count packetFlag + 1 ∧
      (d.reports (wires ps ++ noise ++ wires qs)).filterMap id
        = ps.map Prod.snd ++ spurious ++ qs.map Prod.snd := by
  rw [d.filterMap_reports, decodedPackets_append, decodedPackets_append,
    decodedPackets_wires hready hps, Receiver.run_append]
  set s := Receiver.run hdlc cfg.maxPacketLen d.receiver (wires ps)
  have hnoise := @length_decodedPackets_le_count cfg s noise
  rcases hresume with hlast | hflag
  · obtain ⟨rest, rfl⟩ := List.getLast?_eq_some_iff.mp hlast
    have hopened : Receiver.run hdlc cfg.maxPacketLen s (rest ++ [packetFlag]) = .opened :=
      Receiver.run_concat_flag (S := hdlc) s rest
    rw [hopened, decodedPackets_wires (Or.inl rfl) hqs]
    exact ⟨_, Nat.le_succ_of_le hnoise, rfl⟩
  · obtain ⟨spurious, hone, heq⟩ :=
      exists_decodedPackets_wires (Receiver.run hdlc cfg.maxPacketLen s noise) hflag hqs
    refine ⟨decodedPackets cfg s noise ++ spurious, ?_, by rw [heq]; simp⟩
    rw [List.length_append]
    exact Nat.add_le_add hnoise hone

/-- Two messages with the beginning of a lost packet between them. -/
theorem filterMap_reports_noise_lostPacket :
    let d : SerialPacketsDecoder Config.default :=
      .fresh (Vector.replicate _ 0) (.message 0) (Vector.replicate _ 0)
    ∃ spurious, spurious.length ≤ 2 ∧
      (d.reports (wires [(true, .message 1 [7])] ++ [packetFlag, 1, 2, 3]
        ++ wires [(true, .message 2 [packetFlag])])).filterMap id
          = [.message 1 [7]] ++ spurious ++ [.message 2 [packetFlag]] :=
  filterMap_reports_noise (.fresh (Vector.replicate _ 0) (.message 0) (Vector.replicate _ 0))
    [packetFlag, 1, 2, 3] (Or.inr ⟨rfl, by decide⟩) (by decide) (by decide)
    (Or.inr (by decide))

/-! ## Damage that is noticed -/

/-- Where a segment that spells no packet takes the place of a packet's bytes between its flags,
that packet is missing and nothing else. -/
private theorem filterMap_reports_unreadable {d : SerialPacketsDecoder cfg} {preFlag : Bool}
    {p : Packet (List UInt8)} {segment : List UInt8}
    (hready : ReadyFor d.receiver (ps ++ [(preFlag, p)]))
    (hps : ∀ q ∈ ps, q.2.data.length ≤ cfg.maxPacketDataLen)
    (hqs : ∀ q ∈ qs, q.2.data.length ≤ cfg.maxPacketDataLen) (hseg : packetFlag ∉ segment)
    (hunreadable : ∀ body, Receiver.closes hdlc
      (Receiver.run hdlc cfg.maxPacketLen .opened segment) packetFlag = some body →
        packetOf cfg body = none) :
    (d.reports (wires ps ++ ((if preFlag then [packetFlag] else []) ++ segment ++ [packetFlag])
        ++ wires qs)).filterMap id = ps.map Prod.snd ++ qs.map Prod.snd := by
  have hready' : ReadyFor d.receiver ps := by
    refine hready.imp_right fun ⟨hs, hflag⟩ ↦ ⟨hs, fun q hq ↦ hflag q ?_⟩
    rw [List.head?_append, hq]
    rfl
  have hsegment : decodedPackets cfg .opened (segment ++ [packetFlag]) = [] := by
    rw [decodedPackets_append, decodedPackets_of_flag_free hseg, decodedPackets_singleton]
    cases hclosed : Receiver.closes hdlc (Receiver.run hdlc cfg.maxPacketLen .opened segment)
      packetFlag with
    | none => rfl
    | some body => simp [hunreadable body hclosed]
  set s := Receiver.run hdlc cfg.maxPacketLen d.receiver (wires ps) with hs
  have hopened : Receiver.run hdlc cfg.maxPacketLen s
      ((if preFlag then [packetFlag] else []) ++ segment ++ [packetFlag]) = .opened :=
    Receiver.run_concat_flag (S := hdlc) s _
  -- after the packets in front, the receiver has seen a flag or is about to see one
  have hmiddle : decodedPackets cfg s
      ((if preFlag then [packetFlag] else []) ++ segment ++ [packetFlag]) = [] := by
    have hstart : s = .opened ∨ s.inFrame = false ∧ preFlag = true := by
      obtain _ | ⟨q, ps⟩ := ps
      · exact hready.imp_right fun ⟨hs, hflag⟩ ↦ ⟨hs, hflag _ rfl⟩
      · refine Or.inl ?_
        rw [hs, wires, List.flatMap_cons, Receiver.run_append, Packet.wire]
        have hfirst : Receiver.run hdlc cfg.maxPacketLen d.receiver
            ((if q.1 then [packetFlag] else []) ++ hdlc.stuff q.2.body ++ [packetFlag])
            = .opened := Receiver.run_concat_flag (S := hdlc) _ _
        rw [hfirst]
        exact run_wires ps
    cases hpre : preFlag with
    | false =>
      have hopen : s = .opened :=
        hstart.resolve_right fun h ↦ Bool.false_ne_true (hpre ▸ h.2)
      rw [if_neg Bool.false_ne_true, List.nil_append, hopen, hsegment]
    | true =>
      have hflag : Receiver.run hdlc cfg.maxPacketLen s [packetFlag] = .opened :=
        Receiver.run_concat_flag (S := hdlc) s []
      rw [if_pos rfl, List.append_assoc, decodedPackets_append, hflag, hsegment,
        decodedPackets_singleton]
      rcases hstart with hopen | ⟨hout, -⟩
      · rw [hopen, ← hdlc_flag, Receiver.closes_opened_flag, Option.bind_some, packetOf_nil]
        rfl
      · simp [Receiver.closes, hout]
  rw [d.filterMap_reports, decodedPackets_append, decodedPackets_append,
    decodedPackets_wires hready' hps, hmiddle, Receiver.run_append, hopened,
    decodedPackets_wires (Or.inl rfl) hqs, List.append_nil]

/-- **An error that the CRC finds does not turn the body of a packet into that of another.** -/
theorem packetOf_xorBytes {p : Packet (List UInt8)} {error : List UInt8}
    (hlen : error.length = p.body.length)
    (hfound : ShiftRegister.run crcCcittPoly 0#16 (bitsOf error) ≠ 0#16) :
    packetOf cfg (xorBytes p.body error) = none := by
  refine packetOf_eq_none_iff.mpr fun q hq ↦ hfound ?_
  have hresidue (r : Packet (List UInt8)) :
      ShiftRegister.run crcCcittPoly 0xFFFF#16 (bitsOf r.body) = 0#16 :=
    (run_body_eq_zero_iff r.covered _).mpr rfl
  -- the register is linear: the error alone takes it to zero if both bodies do
  have hxor := hresidue q
  rw [← hq, bitsOf_xorBytes hlen.symm, ← BitVec.xor_zero (x := 0xFFFF#16),
    ShiftRegister.run_xor _ _ _ (by simp [hlen]), hresidue p, BitVec.zero_xor] at hxor
  exact hxor

private theorem closes_run_stuff {body body' : List UInt8} (hlen : body.length ≤ cfg.maxPacketLen)
    (h : Receiver.closes hdlc (Receiver.run hdlc cfg.maxPacketLen .opened (hdlc.stuff body))
      packetFlag = some body') : body' = body := by
  rw [Receiver.run_stuff body rfl (by simpa [Receiver.opened] using hlen)] at h
  obtain ⟨-, -, rfl⟩ := Receiver.closes_eq_some_iff.mp h
  rfl

theorem filterMap_reports_xorBytes (d : SerialPacketsDecoder cfg) {preFlag : Bool}
    {p : Packet (List UInt8)} {error : List UInt8}
    (hready : ReadyFor d.receiver (ps ++ [(preFlag, p)]))
    (hdata : ∀ q ∈ ps ++ (preFlag, p) :: qs, q.2.data.length ≤ cfg.maxPacketDataLen)
    (hlen : error.length = p.body.length)
    (hfound : ShiftRegister.run crcCcittPoly 0#16 (bitsOf error) ≠ 0#16) :
    (d.reports (wires ps ++ hdlc.frame preFlag (xorBytes p.body error) ++ wires qs)).filterMap id
      = ps.map Prod.snd ++ qs.map Prod.snd := by
  rw [List.forall_mem_append, List.forall_mem_cons] at hdata
  obtain ⟨hps, hp, hqs⟩ := hdata
  have hlen' : (xorBytes p.body error).length ≤ cfg.maxPacketLen := by
    rw [xorBytes, List.length_zipWith, hlen, min_self]
    exact Packet.length_body_le hp
  refine filterMap_reports_unreadable hready hps hqs (Stuffing.flag_notMem_stuff _) ?_
  intro body hclosed
  rw [closes_run_stuff hlen' hclosed]
  exact packetOf_xorBytes hlen hfound

/-- **Small errors cost one packet.** Let the decoder be ready for a stream of packets. An odd
number of flipped bits in the body of one of them, or flipped bits within a window of 16, make the
decoder miss that packet; all others are reported, in order, and nothing else. -/
theorem filterMap_reports_smallError (d : SerialPacketsDecoder cfg) {preFlag : Bool}
    {p : Packet (List UInt8)} {error : List UInt8}
    (hready : ReadyFor d.receiver (ps ++ [(preFlag, p)]))
    (hdata : ∀ q ∈ ps ++ (preFlag, p) :: qs, q.2.data.length ≤ cfg.maxPacketDataLen)
    (hlen : error.length = p.body.length) (hne : ∃ b ∈ error, b ≠ 0) (hsmall : SmallError error) :
    (d.reports (wires ps ++ hdlc.frame preFlag (xorBytes p.body error) ++ wires qs)).filterMap id
      = ps.map Prod.snd ++ qs.map Prod.snd :=
  filterMap_reports_xorBytes d hready hdata hlen (run_zero_ne_zero_of_smallError hne hsmall)

/-- A message whose type byte has lost one bit, between two others. -/
theorem filterMap_reports_smallError_oneBit :
    let d : SerialPacketsDecoder Config.default :=
      .fresh (Vector.replicate _ 0) (.message 0) (Vector.replicate _ 0)
    let p : Packet (List UInt8) := .message 2 [packetFlag]
    let error : List UInt8 := [1, 0, 0, 0, 0]
    (d.reports (wires [(true, .message 1 [7])] ++ hdlc.frame false (xorBytes p.body error)
      ++ wires [(false, .message 3 [])])).filterMap id = [.message 1 [7], .message 3 []] :=
  filterMap_reports_smallError
    (.fresh (Vector.replicate _ 0) (.message 0) (Vector.replicate _ 0))
    (Or.inr ⟨rfl, by decide⟩) (by decide) (by decide +kernel) ⟨1, by decide, by decide⟩
    (Or.inl (by decide))

/-! ## One damaged byte -/

private theorem bitsOf_replicate_zero (n : ℕ) :
    bitsOf (List.replicate n 0) = List.replicate (8 * n) false := by
  induction n with
  | zero => rfl
  | succ n ih =>
    have hzero : ShiftRegister.leading 8 (0 : UInt8).toBitVec = List.replicate 8 false := by decide
    rw [List.replicate_succ, bitsOf_cons, ih, hzero, ← List.replicate_add]
    congr 1
    omega

private theorem smallError_oneByte (before after : ℕ) (b : UInt8) :
    SmallError (List.replicate before 0 ++ b :: List.replicate after 0) := by
  refine Or.inr ⟨8 * before, fun j hj ↦ ?_⟩
  rw [bitsOf_append, bitsOf_cons, bitsOf_replicate_zero, bitsOf_replicate_zero,
    List.getElem?_append, List.length_replicate] at hj
  split at hj
  · simp [List.getElem?_replicate] at hj
  · rename_i hge
    rw [List.getElem?_append, ShiftRegister.length_leading] at hj
    split at hj
    · omega
    · simp [List.getElem?_replicate] at hj

theorem xorBytes_replicate_zero (bytes : List UInt8) :
    xorBytes bytes (List.replicate bytes.length 0) = bytes := by
  induction bytes with
  | nil => rfl
  | cons b bytes ih =>
    rw [xorBytes] at ih ⊢
    rw [List.length_cons, List.replicate_succ, List.zipWith_cons_cons, ih, UInt8.xor_zero]

private theorem exists_xorBytes_eq (before after : List UInt8) {b b' : UInt8} (hne : b ≠ b') :
    ∃ error, error.length = (before ++ b :: after).length ∧ (∃ e ∈ error, e ≠ 0) ∧
      SmallError error ∧ xorBytes (before ++ b :: after) error = before ++ b' :: after := by
  refine ⟨List.replicate before.length 0 ++ (b ^^^ b') :: List.replicate after.length 0, by simp,
    ⟨b ^^^ b', by simp, fun h ↦ hne (UInt8.xor_eq_zero_iff.mp h)⟩, smallError_oneByte _ _ _, ?_⟩
  have hsplit : List.zipWith (· ^^^ ·) (before ++ b :: after)
      (List.replicate before.length 0 ++ (b ^^^ b') :: List.replicate after.length 0) =
      List.zipWith (· ^^^ ·) before (List.replicate before.length 0) ++
        List.zipWith (· ^^^ ·) (b :: after) ((b ^^^ b') :: List.replicate after.length 0) :=
    List.zipWith_append (by simp)
  have hbefore := xorBytes_replicate_zero before
  have hafter := xorBytes_replicate_zero after
  rw [xorBytes] at hbefore hafter ⊢
  rw [hsplit, hbefore, List.zipWith_cons_cons, hafter, ← UInt8.xor_assoc, UInt8.xor_self,
    UInt8.zero_xor]

/-- **A damaged byte costs one packet.** Let the decoder be ready for a stream of packets, and let
one byte of a packet change on the wire, between its flags, such that neither the byte nor what it
becomes is a flag or an escape. The decoder then misses that packet; all others are reported, in
order, and nothing else. -/
theorem filterMap_reports_damagedByte (d : SerialPacketsDecoder cfg) {preFlag : Bool}
    {p : Packet (List UInt8)} {pre post : List UInt8} {w w' : UInt8}
    (hready : ReadyFor d.receiver (ps ++ [(preFlag, p)]))
    (hdata : ∀ q ∈ ps ++ (preFlag, p) :: qs, q.2.data.length ≤ cfg.maxPacketDataLen)
    (hwire : hdlc.stuff p.body = pre ++ w :: post) (hw : w ≠ packetFlag ∧ w ≠ packetEsc)
    (hw' : w' ≠ packetFlag ∧ w' ≠ packetEsc) (hne : w ≠ w') :
    (d.reports (wires ps
        ++ ((if preFlag then [packetFlag] else []) ++ (pre ++ w' :: post) ++ [packetFlag])
        ++ wires qs)).filterMap id = ps.map Prod.snd ++ qs.map Prod.snd := by
  rw [List.forall_mem_append, List.forall_mem_cons] at hdata
  obtain ⟨hps, hp, hqs⟩ := hdata
  have hseg : packetFlag ∉ pre ++ w' :: post := by
    have hfree := Stuffing.flag_notMem_stuff (S := hdlc) p.body
    rw [hwire, List.mem_append, List.mem_cons, not_or, not_or] at hfree
    rw [List.mem_append, List.mem_cons, not_or, not_or]
    exact ⟨hfree.1, hw'.1.symm, hfree.2.2⟩
  refine filterMap_reports_unreadable hready hps hqs hseg fun body hclosed ↦ ?_
  rcases Stuffing.stuff_damaged (S := hdlc) (by decide) hwire
      (Stuffing.special_eq_false_iff.mpr hw) (Stuffing.special_eq_false_iff.mpr hw') hne with
    ⟨before, b, b', after, hbody, hb, hstuff⟩ | hdropped
  · obtain ⟨error, hlen, hnonzero, hsmall, hxor⟩ := exists_xorBytes_eq before after hb
    rw [← hbody] at hlen hxor
    have hlen' : (before ++ b' :: after).length ≤ cfg.maxPacketLen := by
      have hbound : p.body.length ≤ cfg.maxPacketLen := Packet.length_body_le hp
      rw [hbody] at hbound
      simpa using hbound
    rw [hstuff] at hclosed
    rw [closes_run_stuff hlen' hclosed, ← hxor]
    exact packetOf_xorBytes hlen (run_zero_ne_zero_of_smallError hnonzero hsmall)
  · have hopen := (Receiver.closes_eq_some_iff.mp hclosed).2.1
    exact absurd ((hdropped cfg.maxPacketLen).symm.trans hopen) Bool.false_ne_true

/-- A message whose payload, an escaped flag, has lost a bit on the wire. -/
theorem filterMap_reports_damagedByte_escaped :
    let d : SerialPacketsDecoder Config.default :=
      .fresh (Vector.replicate _ 0) (.message 0) (Vector.replicate _ 0)
    let p : Packet (List UInt8) := .message 2 [packetFlag]
    let post := (hdlc.stuff p.body).drop 4
    hdlc.stuff p.body = [3, 2, packetEsc] ++ 0x5E :: post ∧
      (d.reports (wires [(true, .message 1 [7])]
        ++ ([packetFlag] ++ ([3, 2, packetEsc] ++ 0x5C :: post) ++ [packetFlag])
        ++ wires [(true, .message 3 [])])).filterMap id = [.message 1 [7], .message 3 []] := by
  have hwire : hdlc.stuff (Packet.message 2 [packetFlag]).body
      = [3, 2, packetEsc] ++ 0x5E :: (hdlc.stuff (Packet.message 2 [packetFlag]).body).drop 4 := by
    decide +kernel
  exact ⟨hwire, @filterMap_reports_damagedByte Config.default [(true, .message 1 [7])]
    [(true, .message 3 [])] (.fresh (Vector.replicate _ 0) (.message 0) (Vector.replicate _ 0))
    true (.message 2 [packetFlag]) [3, 2, packetEsc] _ 0x5E 0x5C (Or.inr ⟨rfl, by decide⟩)
    (by decide) hwire (by decide) (by decide) (by decide)⟩

end SerialPackets

import SerialPackets.Model.Decoder
import SerialPackets.Model.Encoder

/-!
# Decoding what was encoded

One packet on the wire, fed to a decoder that has just seen a flag, is reported at its last byte and
nowhere else, and leaves the decoder having just seen a flag. Streams of packets follow by
induction: the post flag of each packet is a pre flag for the next one, and an extra pre flag closes
an empty frame, which is not reported.
-/

namespace SerialPackets

open Framing

variable {cfg : Config}

theorem Packet.exists_metadata {D : Type*} (p : Packet D) :
    ∃ (m : DecodedPacketMetadata) (payload : D), p = m.packet payload := by
  cases p with
  | command cmdId endpoint data => exact ⟨.command cmdId endpoint, data, rfl⟩
  | response cmdId status data => exact ⟨.response cmdId status, data, rfl⟩
  | message endpoint data => exact ⟨.message endpoint, data, rfl⟩

theorem Packet.body_ne_nil (p : Packet (List UInt8)) : p.body ≠ [] := by
  intro h
  have hlen := p.length_body
  rw [h, List.length_nil] at hlen
  omega

theorem Packet.wire_true (p : Packet (List UInt8)) :
    Packet.wire true p = packetFlag :: Packet.wire false p := by
  rw [wire, wire, if_pos rfl, if_neg Bool.false_ne_true, List.nil_append, List.append_assoc,
    List.singleton_append]

/-- What the bytes of a packet report: nothing, up to the last one. -/
def Packet.reportsOf (preFlag : Bool) (p : Packet (List UInt8)) :
    List (Option (Packet (List UInt8))) :=
  List.replicate ((Packet.wire preFlag p).length - 1) none ++ [some p]

private theorem Packet.reportsOf_true (p : Packet (List UInt8)) :
    Packet.reportsOf true p = none :: Packet.reportsOf false p := by
  have hlen : (Packet.wire true p).length - 1 = (Packet.wire false p).length - 1 + 1 := by
    have hpos := List.length_pos_of_ne_nil (Packet.wire_ne_nil false p)
    rw [wire_true, List.length_cons]
    omega
  rw [reportsOf, hlen, List.replicate_succ, List.cons_append, reportsOf]

namespace SerialPacketsDecoder

variable {d : SerialPacketsDecoder cfg}

theorem receiver_decodeNextByte_flag (d : SerialPacketsDecoder cfg) :
    (d.decodeNextByte packetFlag).decoder.receiver = Receiver.opened := by
  rw [(d.decodeNextByte_spec packetFlag).1, ← hdlc_flag, Receiver.next_flag]

private theorem reportAt_flag_of_opened (h : d.receiver = Receiver.opened) :
    d.reportAt packetFlag = none := by
  refine if_neg fun hnew ↦ ?_
  obtain ⟨m, payload, hcloses⟩ := (d.hasNewPacket_decodeNextByte_iff packetFlag).mp hnew
  rw [h, ← hdlc_flag, Receiver.closes_opened_flag] at hcloses
  exact (m.packet payload).body_ne_nil (Option.some_inj.mp hcloses).symm

theorem reportAt_of_closes {p : Packet (List UInt8)} {b : UInt8}
    (h : Receiver.closes hdlc d.receiver b = some p.body)
    (hdata : p.data.length ≤ cfg.maxPacketDataLen) : d.reportAt b = some p := by
  obtain ⟨m, payload, rfl⟩ := p.exists_metadata
  obtain ⟨hnew, hmeta, hpayload⟩ := decodeNextByte_of_closes h
  have hlen : payload.length ≤ cfg.maxPacketDataLen := by
    rcases m with ⟨c, e⟩ | ⟨c, s⟩ | e <;> exact hdata
  have hfit : d.decodedData.clear.size + payload.length ≤ cfg.maxPacketDataLen := by
    rwa [SerialPacketsBuffer.size_clear, Nat.zero_add]
  rw [reportAt, if_pos hnew, packet, hmeta, hpayload,
    SerialPacketsBuffer.contents_writeBytes rfl hfit, SerialPacketsBuffer.contents_clear,
    List.nil_append]

private theorem reports_wire_false (h : d.receiver = Receiver.opened)
    {p : Packet (List UInt8)} (hdata : p.data.length ≤ cfg.maxPacketDataLen) :
    d.reports (Packet.wire false p) = Packet.reportsOf false p := by
  have hwire : Packet.wire false p = hdlc.stuff p.body ++ [packetFlag] := by
    rw [Packet.wire, if_neg Bool.false_ne_true, List.nil_append]
  have hbody : (d.feed (hdlc.stuff p.body)).receiver = ⟨true, p.body, false⟩ := by
    rw [receiver_feed, h, Receiver.run_stuff p.body rfl
      (by simpa [Receiver.opened] using Packet.length_body_le hdata)]
    rfl
  have hlast : (d.feed (hdlc.stuff p.body)).reports [packetFlag] = [some p] := by
    rw [reports, reports_nil, reportAt_of_closes _ hdata]
    rw [hbody]
    exact if_pos ⟨rfl, rfl⟩
  rw [Packet.reportsOf, hwire, reports_append, hlast,
    reports_of_flag_free d (Stuffing.flag_notMem_stuff p.body), List.length_append,
    List.length_singleton, Nat.add_sub_cancel]

/-- **One packet.** Right after a flag, a packet on the wire is reported at its last byte. -/
theorem reports_wire (h : d.receiver = Receiver.opened) (preFlag : Bool)
    {p : Packet (List UInt8)} (hdata : p.data.length ≤ cfg.maxPacketDataLen) :
    d.reports (Packet.wire preFlag p) = Packet.reportsOf preFlag p := by
  cases preFlag with
  | true =>
    rw [Packet.wire_true, reports, reportAt_flag_of_opened h, Packet.reportsOf_true,
      reports_wire_false (receiver_decodeNextByte_flag d) hdata]
  | false => exact reports_wire_false h hdata

private theorem receiver_feed_wire (d : SerialPacketsDecoder cfg) (preFlag : Bool)
    (p : Packet (List UInt8)) : (d.feed (Packet.wire preFlag p)).receiver = Receiver.opened := by
  rw [Packet.wire, feed_append, feed_cons, feed_nil, receiver_decodeNextByte_flag]

/-- **Streams of packets**, fed right after a flag. -/
theorem reports_wires (h : d.receiver = Receiver.opened)
    (packets : List (Bool × Packet (List UInt8)))
    (hdata : ∀ q ∈ packets, q.2.data.length ≤ cfg.maxPacketDataLen) :
    d.reports (packets.flatMap fun q ↦ Packet.wire q.1 q.2)
      = packets.flatMap fun q ↦ Packet.reportsOf q.1 q.2 := by
  induction packets generalizing d with
  | nil => rfl
  | cons q packets ih =>
    rw [List.flatMap_cons, List.flatMap_cons, reports_append,
      reports_wire h q.1 (hdata q List.mem_cons_self),
      ih (receiver_feed_wire d q.1 q.2) fun q' hq' ↦ hdata q' (List.mem_cons_of_mem q hq')]

end SerialPacketsDecoder

/-! ## Encoded streams -/

/-- Packets encoded one after another, with the flag option of each, and the outputs joined; `none`
when an encode function returns `false`. -/
def SerialPacketsEncoder.encodeAll (e : SerialPacketsEncoder cfg) (out : StuffedPacketBuffer cfg) :
    List (Bool × Packet (SerialPacketsData cfg)) → Option (List UInt8)
  | [] => some []
  | (preFlag, p) :: packets =>
    let r := e.encodePacket p preFlag out
    if r.ok then (r.encoder.encodeAll r.out packets).map (r.out.contents ++ ·) else none

/-- The packets with their payloads as lists. -/
def payloads (packets : List (Bool × Packet (SerialPacketsData cfg))) :
    List (Bool × Packet (List UInt8)) :=
  packets.map fun q ↦ (q.1, q.2.map SerialPacketsBuffer.contents)

theorem SerialPacketsEncoder.encodeAll_eq_some_iff {e : SerialPacketsEncoder cfg}
    {out : StuffedPacketBuffer cfg} {packets : List (Bool × Packet (SerialPacketsData cfg))}
    {stream : List UInt8} :
    e.encodeAll out packets = some stream ↔
      (∀ q ∈ payloads packets, (Packet.wire q.1 q.2).length < cfg.stuffedCapacity) ∧
        stream = (payloads packets).flatMap fun q ↦ Packet.wire q.1 q.2 := by
  induction packets generalizing e out stream with
  | nil =>
    rw [encodeAll, Option.some_inj, eq_comm]
    exact ⟨fun h ↦ ⟨fun _ hq ↦ absurd hq List.not_mem_nil, h⟩, And.right⟩
  | cons q packets ih =>
    obtain ⟨preFlag, p⟩ := q
    have hok := e.encodePacket_ok_iff p preFlag out
    rw [encodeAll, payloads, List.map_cons, List.forall_mem_cons, List.flatMap_cons, ← payloads,
      ← hok]
    by_cases hfits : (e.encodePacket p preFlag out).ok = true
    · rw [if_pos hfits, Option.map_eq_some_iff, e.contents_encodePacket, if_pos hfits]
      constructor
      · rintro ⟨rest, hrest, rfl⟩
        obtain ⟨hall, rfl⟩ := ih.mp hrest
        exact ⟨⟨hfits, hall⟩, rfl⟩
      · rintro ⟨⟨-, hall⟩, rfl⟩
        exact ⟨_, ih.mpr ⟨hall, rfl⟩, rfl⟩
    · rw [if_neg hfits]
      exact ⟨fun h ↦ absurd h (Option.some_ne_none _).symm, fun h ↦ absurd h.1.1 hfits⟩

private theorem payloads_length_le (packets : List (Bool × Packet (SerialPacketsData cfg))) :
    ∀ q ∈ payloads packets, q.2.data.length ≤ cfg.maxPacketDataLen := by
  intro q hq
  obtain ⟨q', -, rfl⟩ := List.mem_map.mp hq
  rw [Packet.data_map]
  exact SerialPacketsData.length_contents_le _

private theorem filterMap_reportsOf (packets : List (Bool × Packet (List UInt8))) :
    (packets.flatMap fun q ↦ Packet.reportsOf q.1 q.2).filterMap id = packets.map Prod.snd := by
  induction packets with
  | nil => rfl
  | cons q packets ih =>
    rw [List.flatMap_cons, List.filterMap_append, ih, List.map_cons, Packet.reportsOf,
      List.filterMap_append, List.filterMap_replicate_of_none rfl]
    rfl

/-- **Decoding undoes encoding.** After any history, a stream of packets encoded one after another
is reported packet by packet, each at its last byte, provided the first one has a pre flag or the
history ends in a flag. In the first case nothing is said about the very first byte, which may close
a frame of the history. -/
theorem reports_encodeAll (packetBuffer : Vector UInt8 cfg.maxPacketLen)
    (metadata : DecodedPacketMetadata) (dataMemory : Vector UInt8 cfg.maxPacketDataLen)
    (history : List UInt8) (e : SerialPacketsEncoder cfg) (out : StuffedPacketBuffer cfg)
    (preFlag : Bool) (first : Packet (SerialPacketsData cfg))
    (packets : List (Bool × Packet (SerialPacketsData cfg))) (stream : List UInt8)
    (hstart : preFlag = true ∨ history.getLast? = some packetFlag)
    (henc : e.encodeAll out ((preFlag, first) :: packets) = some stream) :
    let d := (SerialPacketsDecoder.fresh packetBuffer metadata dataMemory).feed history
    let skipped := if preFlag then 1 else 0
    (d.reports stream).drop skipped
        = ((payloads ((preFlag, first) :: packets)).flatMap fun q ↦
            Packet.reportsOf q.1 q.2).drop skipped ∧
      ((d.reports stream).drop skipped).filterMap id
        = (payloads ((preFlag, first) :: packets)).map Prod.snd := by
  intro d skipped
  rw [(SerialPacketsEncoder.encodeAll_eq_some_iff.mp henc).2]
  have hdata := payloads_length_le ((preFlag, first) :: packets)
  cases hpre : preFlag with
  | true =>
    -- behind the first byte this is a stream whose first packet has no pre flag
    have hskip : skipped = 1 := if_pos hpre
    have hdata' := payloads_length_le ((false, first) :: packets)
    have hreports : (d.reports ((payloads ((true, first) :: packets)).flatMap fun q ↦
          Packet.wire q.1 q.2)).drop 1
        = (payloads ((false, first) :: packets)).flatMap fun q ↦ Packet.reportsOf q.1 q.2 := by
      rw [← SerialPacketsDecoder.reports_wires
        (SerialPacketsDecoder.receiver_decodeNextByte_flag d) _ hdata']
      simp only [payloads, List.map_cons, List.flatMap_cons, Packet.wire_true, List.cons_append,
        SerialPacketsDecoder.reports, List.drop_succ_cons, List.drop_zero]
    rw [hskip, hreports]
    refine ⟨?_, filterMap_reportsOf _⟩
    simp only [payloads, List.map_cons, List.flatMap_cons, Packet.reportsOf_true, List.cons_append,
      List.drop_succ_cons, List.drop_zero]
  | false =>
    have hskip : skipped = 0 := if_neg (by rw [hpre]; exact Bool.false_ne_true)
    have hopen : d.receiver = Receiver.opened := by
      obtain ⟨rest, hrest⟩ := List.getLast?_eq_some_iff.mp
        (hstart.resolve_left (by rw [hpre]; exact Bool.false_ne_true))
      rw [SerialPacketsDecoder.receiver_feed, hrest, ← hdlc_flag, Receiver.run_concat_flag]
    rw [hpre] at hdata
    rw [hskip, List.drop_zero, List.drop_zero, SerialPacketsDecoder.reports_wires hopen _ hdata]
    exact ⟨rfl, filterMap_reportsOf _⟩

/-- Three packets behind a history that is not made of packets. -/
theorem reports_encodeAll_three :
    let fresh : SerialPacketsDecoder Config.default :=
      .fresh (Vector.replicate _ 0) (.message 0) (Vector.replicate _ 0)
    let data : SerialPacketsData Config.default :=
      (SerialPacketsBuffer.fresh (Vector.replicate _ 0)).writeBytes [packetFlag, 7, packetEsc]
    (((fresh.feed [1, packetFlag, 2]).reports
        ((payloads [(true, .command 0x7E7D 7 data), (false, .response 1 0 data),
          (true, .message 9 data)]).flatMap fun q ↦ Packet.wire q.1 q.2)).drop 1).filterMap id
      = [.command 0x7E7D 7 data.contents, .response 1 0 data.contents,
          .message 9 data.contents] := by
  intro fresh data
  have hdata : data.contents = [packetFlag, 7, packetEsc] := by
    rw [SerialPacketsBuffer.contents_writeBytes rfl (by decide),
      SerialPacketsBuffer.contents_fresh, List.nil_append]
  let e : SerialPacketsEncoder Config.default := ⟨.fresh (Vector.replicate _ 0)⟩
  have hfits : ∀ q ∈ payloads [(true, .command 0x7E7D 7 data), (false, .response 1 0 data),
      (true, .message 9 data)], (Packet.wire q.1 q.2).length < Config.default.stuffedCapacity := by
    rw [payloads]
    simp only [List.map_cons, List.map_nil, Packet.map, hdata]
    decide +kernel
  have henc := (@SerialPacketsEncoder.encodeAll_eq_some_iff _ e (.fresh (Vector.replicate _ 0))
    _ _).mpr ⟨hfits, rfl⟩
  exact (reports_encodeAll (Vector.replicate _ 0) (.message 0) (Vector.replicate _ 0)
    [1, packetFlag, 2] _ _ true _ _ _ (Or.inl rfl) henc).2

end SerialPackets

import SerialPackets.Codec.ByteQueue
import SerialPackets.Codec.Packets

/-!
# Typed payloads

What a program writes into the data of a packet with the typed writers, the program at the other end
reads back with the typed readers, in the same order (`readAll_of_encodePacket`). This puts the
codec, the checks of the encoder and the decoder and the queue of the byte buffers together.
-/

namespace SerialPackets

open Framing

variable {cfg : Config}

/-! ## Writing the data -/

namespace SerialPacketsBuffer

variable {N : ℕ}

private theorem hadWriteErrors_writeAll {b : SerialPacketsBuffer N} (vs : List Value)
    (h : b.hadWriteErrors = true) : (b.writeAll vs).hadWriteErrors = true := by
  induction vs generalizing b with
  | nil => exact h
  | cons v vs ih =>
    refine ih ?_
    rw [write_eq, writeBytes_of_not_fit (Or.inl h)]

private theorem length_le_of_writeAll {b : SerialPacketsBuffer N} (vs : List Value)
    (h : (b.writeAll vs).hadWriteErrors = false) :
    b.size + (vs.flatMap Value.encoding).length ≤ N := by
  induction vs generalizing b with
  | nil =>
    rw [List.flatMap_nil, List.length_nil, Nat.add_zero]
    exact b.size_le
  | cons v vs ih =>
    have hv : (b.write v).hadWriteErrors = false := by
      by_contra herr
      rw [Bool.not_eq_false] at herr
      have hall : (b.writeAll (v :: vs)).hadWriteErrors = true := hadWriteErrors_writeAll vs herr
      exact Bool.false_ne_true (h.symm.trans hall)
    have hrest := ih h
    rw [write_eq] at hv hrest
    by_cases hfit : b.hadWriteErrors = true ∨ N < b.size + v.encoding.length
    · rw [writeBytes_of_not_fit hfit] at hv
      exact absurd hv Bool.true_eq_false.mp
    · rw [not_or, Bool.not_eq_true, Nat.not_lt] at hfit
      rw [size_writeBytes hfit.1 hfit.2] at hrest
      rw [List.flatMap_cons, List.length_append, ← Nat.add_assoc]
      exact hrest

private theorem contents_writeAll_clear {b : SerialPacketsBuffer N} (vs : List Value)
    (h : (b.clear.writeAll vs).hadWriteErrors = false) :
    (b.clear.writeAll vs).contents = vs.flatMap Value.encoding := by
  have hqueue := queue_writeAll vs b.hadWriteErrors_clear (length_le_of_writeAll vs h)
  have hitems := congrArg BoundedQueue.items hqueue
  rwa [contents_clear, List.nil_append] at hitems

end SerialPacketsBuffer

/-! ## Over the wire -/

theorem DecodedPacketMetadata.map_packet {D E : Type*} (f : D → E)
    (metadata : DecodedPacketMetadata) (data : D) :
    (metadata.packet data).map f = metadata.packet (f data) := by
  cases metadata <;> rfl

private theorem SerialPacketsDecoder.feed_wire (d : SerialPacketsDecoder cfg) {preFlag : Bool}
    (hready : d.receiver = .opened ∨ preFlag = true) (metadata : DecodedPacketMetadata)
    {payload : List UInt8} (hdata : payload.length ≤ cfg.maxPacketDataLen) :
    let received := d.feed (Packet.wire preFlag (metadata.packet payload))
    (d.reports (Packet.wire preFlag (metadata.packet payload))).getLast?
        = some (some (metadata.packet payload)) ∧
      received.decodedMetadata = metadata ∧
      ∃ data : SerialPacketsData cfg, received.decodedData = data.clear.writeBytes payload := by
  intro received
  set p := metadata.packet payload with hp
  have hbodyLen : p.body.length ≤ cfg.maxPacketLen := by
    refine Packet.length_body_le ?_
    rwa [hp, metadata.data_packet]
  set start : List UInt8 := if preFlag then [packetFlag] else [] with hstart
  -- the leading flag, where there is one, opens the receiver; else it was open already
  have hopened : (d.feed start).receiver = .opened := by
    rw [hstart]
    rcases hready with hready | rfl
    · split
      · exact receiver_decodeNextByte_flag d
      · exact hready
    · exact receiver_decodeNextByte_flag d
  have hwire : Packet.wire preFlag p = start ++ hdlc.stuff p.body ++ [packetFlag] := rfl
  have hclosed : Receiver.closes hdlc (d.feed (start ++ hdlc.stuff p.body)).receiver packetFlag
      = some p.body := by
    rw [feed_append, receiver_feed, hopened, Receiver.run_stuff p.body rfl
      (by simpa [Receiver.opened] using hbodyLen)]
    exact if_pos ⟨rfl, rfl⟩
  obtain ⟨-, hmeta, hcontents⟩ := decodeNextByte_of_closes hclosed
  have hlast : received
      = ((d.feed (start ++ hdlc.stuff p.body)).decodeNextByte packetFlag).decoder := by
    change d.feed (Packet.wire preFlag p) = _
    rw [hwire, feed_append]
    rfl
  refine ⟨?_, hlast ▸ hmeta, _, hlast ▸ hcontents⟩
  rw [hwire, reports_append, reports, reports_nil, List.getLast?_concat,
    reportAt_of_closes hclosed (by rwa [hp, metadata.data_packet])]

/-- **Typed values over the wire.** Let a program clear the data of a packet and write typed values
into it, without a write error at the end, and let the encoder accept the packet. Any decoder that
has just seen a flag, or any at all if the packet has a flag of its own, then reports the packet at
its last byte, with the fields it was encoded with; and reading the types of the values from the
decoded data returns the values, with everything read and no read error. -/
theorem readAll_of_encodePacket (e : SerialPacketsEncoder cfg) (out : StuffedPacketBuffer cfg)
    (preFlag : Bool) (metadata : DecodedPacketMetadata) (b : SerialPacketsData cfg)
    (vs : List Value) (d : SerialPacketsDecoder cfg)
    (hready : d.receiver = .opened ∨ preFlag = true)
    (hwritten : (b.clear.writeAll vs).hadWriteErrors = false)
    (hok : (e.encodePacket (metadata.packet (b.clear.writeAll vs)) preFlag out).ok = true) :
    let stream := (e.encodePacket (metadata.packet (b.clear.writeAll vs)) preFlag out).out.contents
    let received := d.feed stream
    (d.reports stream).getLast? = some (some (metadata.packet (vs.flatMap Value.encoding))) ∧
      received.decodedMetadata = metadata ∧
      ∃ left, received.decodedData.readAll (vs.map Value.kind) = (vs, left) ∧
        left.allReadOk = true := by
  intro stream received
  have hfit : (vs.flatMap Value.encoding).length ≤ cfg.maxPacketDataLen := by
    have hle := SerialPacketsBuffer.length_le_of_writeAll vs hwritten
    rwa [SerialPacketsBuffer.size_clear, Nat.zero_add] at hle
  have hstream : stream
      = Packet.wire preFlag (metadata.packet (vs.flatMap Value.encoding)) := by
    change (e.encodePacket _ preFlag out).out.contents = _
    rw [e.contents_encodePacket, if_pos hok, metadata.map_packet,
      SerialPacketsBuffer.contents_writeAll_clear vs hwritten]
  obtain ⟨hreport, hmeta, data, hdata⟩ := d.feed_wire hready metadata hfit
  rw [← hstream] at hreport hmeta hdata
  refine ⟨hreport, hmeta, ?_⟩
  change ∃ left, (d.feed stream).decodedData.readAll _ = _ ∧ _
  rw [hdata]
  refine SerialPacketsBuffer.readAll_kinds vs ?_ ?_
  · rw [SerialPacketsBuffer.hadReadErrors_writeBytes, SerialPacketsBuffer.hadReadErrors_clear]
  · rw [SerialPacketsBuffer.bytesRead_writeBytes, SerialPacketsBuffer.bytesRead_clear,
      List.drop_zero, SerialPacketsBuffer.contents_writeBytes rfl
        (by rwa [SerialPacketsBuffer.size_clear, Nat.zero_add]),
      SerialPacketsBuffer.contents_clear, List.nil_append]

/-- A command with three typed values, after a history that is not made of packets. -/
theorem readAll_of_encodePacket_command :
    let e : SerialPacketsEncoder Config.default := ⟨.fresh (Vector.replicate _ 0)⟩
    let vs : List Value := [.uint8 0x7E, .uint32 0x7D7E0102, .bytes [packetEsc, packetFlag]]
    let b : SerialPacketsData Config.default := .fresh (Vector.replicate _ 0)
    let d : SerialPacketsDecoder Config.default :=
      .fresh (Vector.replicate _ 0) (.message 0) (Vector.replicate _ 0)
    let metadata : DecodedPacketMetadata := .command 0x7E7D 7
    let stream := (e.encodePacket (metadata.packet (b.clear.writeAll vs)) true
      (.fresh (Vector.replicate _ 0))).out.contents
    ∃ left, ((d.feed [1, packetFlag, 2]).feed stream).decodedData.readAll (vs.map Value.kind)
      = (vs, left) ∧ left.allReadOk = true := by
  exact (readAll_of_encodePacket _ _ true (.command 0x7E7D 7) _ _ _ (Or.inr rfl)
    (by decide +kernel) (by decide +kernel)).2.2

end SerialPackets

import SerialPackets.Model.Encoder

/-!
# When byte stuffing fits

`StuffedPacketBuffer` is sized for packets of which at most half the bytes need an escape. The
checks of `byte_stuffing` refuse the byte that would fill the last cell, so an output of exactly the
capacity is reported as not fitting. That is the only disagreement with the size computation: the
contract below holds at every other length, and the buffer for the unstuffed packet never overflows.
-/

namespace SerialPackets

variable {cfg : Config}

/-- What `byte_stuffing` is for, on one input: no store leaves the output array, the call succeeds
if and only if the output fits, in particular when at most half of the bytes need an escape, and the
output is the stuffed packet or nothing. Encoding a packet with that body fails for no other
reason. -/
structure StuffingContract (inp : EncodedPacketBuffer cfg) (insertPreFlag : Bool)
    (out : StuffedPacketBuffer cfg) : Prop where
  inRange : byteStuffing? inp insertPreFlag out = some (byteStuffing inp insertPreFlag out)
  ok_iff : (byteStuffing inp insertPreFlag out).ok = true ↔
    (if insertPreFlag then 1 else 0) + inp.contents.length + inp.contents.countP hdlc.special + 1
      ≤ out.capacity
  ok_of_half : 2 * inp.contents.countP hdlc.special ≤ inp.contents.length →
    (byteStuffing inp insertPreFlag out).ok = true
  contents_of_ok : (byteStuffing inp insertPreFlag out).ok = true →
    (byteStuffing inp insertPreFlag out).out.contents
      = (if insertPreFlag then [packetFlag] else []) ++ hdlc.stuff inp.contents ++ [packetFlag]
  contents_of_not_ok : (byteStuffing inp insertPreFlag out).ok = false →
    (byteStuffing inp insertPreFlag out).out.contents = []
  encode_noErrors : ∀ (e : SerialPacketsEncoder cfg) (p : Packet (SerialPacketsData cfg)),
    (p.map SerialPacketsBuffer.contents).body = inp.contents →
      (e.encodePacket p insertPreFlag out).encoder.tmpData.hadWriteErrors = false
  encode_ok_iff : ∀ (e : SerialPacketsEncoder cfg) (p : Packet (SerialPacketsData cfg)),
    (p.map SerialPacketsBuffer.contents).body = inp.contents →
      ((e.encodePacket p insertPreFlag out).ok = true ↔
        (if insertPreFlag then 1 else 0) + inp.contents.length
          + inp.contents.countP hdlc.special + 1 ≤ out.capacity)

private theorem stuffedLength_le_of_half {bytes : List UInt8} (insertPreFlag : Bool)
    (hlen : bytes.length ≤ cfg.maxPacketLen)
    (hhalf : 2 * bytes.countP hdlc.special ≤ bytes.length) :
    stuffedLength insertPreFlag bytes ≤ cfg.stuffedCapacity := by
  have hflag : (if insertPreFlag then 1 else 0) ≤ 1 := by
    cases insertPreFlag <;> decide
  rw [stuffedLength, Config.stuffedCapacity]
  omega

/-- **Byte stuffing meets its contract except at the capacity itself.** -/
theorem stuffingContract_iff (inp : EncodedPacketBuffer cfg) (insertPreFlag : Bool)
    (out : StuffedPacketBuffer cfg) (hlen : inp.contents.length ≤ cfg.maxPacketLen) :
    StuffingContract inp insertPreFlag out ↔
      (if insertPreFlag then 1 else 0) + inp.contents.length + inp.contents.countP hdlc.special + 1
        ≠ out.capacity := by
  have hok := byteStuffing_ok_iff inp insertPreFlag out
  have hout := contents_byteStuffing inp insertPreFlag out
  rw [stuffedLength] at hok
  change _ ↔ _ ≠ cfg.stuffedCapacity
  constructor
  · intro h heq
    have hfits : (byteStuffing inp insertPreFlag out).ok = true := h.ok_iff.mpr heq.le
    rw [hok, heq] at hfits
    exact lt_irrefl _ hfits
  · intro hne
    refine ⟨byteStuffing?_eq inp insertPreFlag out, ?_, ?_, ?_, ?_, ?_, ?_⟩
    · exact hok.trans ⟨le_of_lt, fun hle ↦ lt_of_le_of_ne hle hne⟩
    · intro hhalf
      exact hok.mpr (lt_of_le_of_ne (stuffedLength_le_of_half insertPreFlag hlen hhalf) hne)
    · intro h
      rw [hout, if_pos h]
    · intro h
      rw [hout, if_neg (by rw [h]; exact Bool.false_ne_true)]
    · intro e p _
      exact e.encodePacket_noErrors p insertPreFlag out
    · intro e p hp
      rw [e.encodePacket_ok_iff, Packet.length_wire, hp]
      exact ⟨le_of_lt, fun hle ↦ lt_of_le_of_ne hle hne⟩

/-- A command packet of the greatest length in which half of the bytes are flags. -/
def halfFlags : Packet (List UInt8) :=
  .command 1 0 (List.replicate 54 packetFlag ++ List.replicate 46 0)

/-- The body of `halfFlags` in the encoder's scratch buffer. -/
def halfFlagsBuffer : EncodedPacketBuffer Config.default :=
  (SerialPacketsBuffer.fresh (Vector.replicate _ 0)).writeBytes halfFlags.body

private theorem contents_halfFlagsBuffer : halfFlagsBuffer.contents = halfFlags.body := by
  have hfit : (SerialPacketsBuffer.fresh (Vector.replicate Config.default.encodedCapacity 0)).size
      + halfFlags.body.length ≤ Config.default.encodedCapacity := by
    rw [Packet.length_body]
    decide
  rw [halfFlagsBuffer, SerialPacketsBuffer.contents_writeBytes rfl hfit,
    SerialPacketsBuffer.contents_fresh, List.nil_append]

private theorem stuffedLength_halfFlags : stuffedLength true halfFlags.body = 164 := by
  decide +kernel

/-- A body half of which needs an escape is refused although it fits. -/
theorem not_stuffingContract_halfFlags :
    ¬StuffingContract halfFlagsBuffer true (SerialPacketsBuffer.fresh (Vector.replicate _ 0)) := by
  intro h
  have hfits := h.ok_iff.mpr (by
    rw [contents_halfFlagsBuffer]
    exact stuffedLength_halfFlags.le)
  rw [byteStuffing_ok_iff, contents_halfFlagsBuffer, stuffedLength_halfFlags] at hfits
  exact absurd hfits (by decide)

/-- The same packet without a pre flag is one byte shorter and is stuffed. -/
theorem stuffingContract_halfFlags :
    StuffingContract halfFlagsBuffer false (SerialPacketsBuffer.fresh (Vector.replicate _ 0)) := by
  have hlen : halfFlagsBuffer.contents.length ≤ Config.default.maxPacketLen := by
    rw [contents_halfFlagsBuffer, Packet.length_body]
    decide
  refine (stuffingContract_iff halfFlagsBuffer false _ hlen).mpr ?_
  rw [contents_halfFlagsBuffer]
  decide +kernel

end SerialPackets

import SerialPackets.Model.Decoder

/-!
# The packet grammar

Which frames the decoder reports, given as a grammar on the unstuffed frame body that mentions no
decoder state: lengths, CRC and type byte (`WellFormed`), and the fields a report must show
(`DecodedPacketMetadata.FieldsOf`). The decoder reports exactly the frames of the grammar, whatever
bytes came before (`decoder_accepts_grammar`).

The payload is another matter. A frame may be as long as the longest command, and a message has a
shorter header than a command, so that the grammar admits messages whose payload is longer than a
`SerialPacketsData`. The last section shows that these, and only these, are reported without their
payload (`keepsPayload_iff`).
-/

namespace SerialPackets

open Framing

variable {cfg : Config}

/-! ## The grammar -/

/-- The frame bodies of the protocol. -/
structure WellFormed (cfg : Config) (body : List UInt8) : Prop where
  four_le : 4 ≤ body.length
  length_le : body.length ≤ cfg.maxPacketLen
  crc : body.drop (body.length - 2)
    = BigEndian.bytes16 (serialPacketsGenCrc16 (body.take (body.length - 2)))
  type : body[0]? = some typeMessage ∨
    (body[0]? = some typeCommand ∨ body[0]? = some typeResponse) ∧ 8 ≤ body.length

namespace DecodedPacketMetadata

/-- The metadata shows the fields of this body. -/
def FieldsOf (m : DecodedPacketMetadata) (body : List UInt8) : Prop :=
  match m with
  | .command cmdId endpoint =>
    body[0]? = some typeCommand ∧ (body.drop 1).take 4 = BigEndian.bytes32 cmdId ∧
      body[5]? = some endpoint
  | .response cmdId status =>
    body[0]? = some typeResponse ∧ (body.drop 1).take 4 = BigEndian.bytes32 cmdId ∧
      body[5]? = some status
  | .message endpoint => body[0]? = some typeMessage ∧ body[1]? = some endpoint

/-- The number of bytes in front of the payload. -/
def headerLength : DecodedPacketMetadata → ℕ
  | command _ _ => 6
  | response _ _ => 6
  | message _ => 2

theorem length_header_packet {D : Type*} (m : DecodedPacketMetadata) (payload : D) :
    (m.packet payload).header.length = m.headerLength := by
  rcases m with ⟨c, e⟩ | ⟨c, s⟩ | e <;> rfl

@[simp] theorem data_packet {D : Type*} (m : DecodedPacketMetadata) (payload : D) :
    (m.packet payload).data = payload := by
  rcases m with ⟨c, e⟩ | ⟨c, s⟩ | e <;> rfl

private theorem fieldsOf_body (m : DecodedPacketMetadata) (payload : List UInt8) :
    m.FieldsOf (m.packet payload).body := by
  rcases m with ⟨c, e⟩ | ⟨c, s⟩ | e
  · exact ⟨rfl, rfl, rfl⟩
  · exact ⟨rfl, rfl, rfl⟩
  · exact ⟨rfl, rfl⟩

end DecodedPacketMetadata

theorem Packet.drop_body (p : Packet (List UInt8)) :
    p.body.drop (p.body.length - 2)
      = BigEndian.bytes16 (serialPacketsGenCrc16 (p.body.take (p.body.length - 2))) := by
  have hlen : p.body.length - 2 = p.covered.length := by
    rw [body, List.length_append, BigEndian.length_bytes16, Nat.add_sub_cancel]
  rw [hlen, body, List.drop_left, List.take_left]

theorem Packet.take_drop_body (p : Packet (List UInt8)) :
    (p.body.drop p.header.length).take (p.body.length - p.header.length - 2) = p.data := by
  have hlen : p.body.length - p.header.length - 2 = p.data.length := by
    rw [length_body]
    omega
  rw [hlen, body, covered, List.append_assoc, List.drop_left, List.take_left]

theorem WellFormed.exists_packet {body : List UInt8} (h : WellFormed cfg body) :
    ∃ (m : DecodedPacketMetadata) (payload : List UInt8), body = (m.packet payload).body := by
  have hfour := h.four_le
  obtain ⟨covered, b₁, b₀, rfl⟩ := exists_append_pair (show 2 ≤ body.length by omega)
  have hlen : (covered ++ [b₁, b₀]).length - 2 = covered.length := by simp
  have hcrc := h.crc
  rw [hlen, List.drop_left, List.take_left] at hcrc
  rw [List.length_append, List.length_cons, List.length_cons, List.length_nil] at hfour
  have htype := h.type
  rw [List.getElem?_append_left (by omega), List.length_append, List.length_cons, List.length_cons,
    List.length_nil] at htype
  rw [hcrc]
  rcases htype with hmsg | ⟨hcr, height⟩
  · match covered, hfour, hmsg with
    | t :: e :: payload, _, hmsg =>
      obtain rfl : t = typeMessage := Option.some_inj.mp hmsg
      exact ⟨.message e, payload, rfl⟩
  · match covered, height, hcr with
    | t :: c₃ :: c₂ :: c₁ :: c₀ :: f :: payload, _, hcr =>
      have hid := BigEndian.bytes32_word32 c₃ c₂ c₁ c₀
      have hsplit : t :: c₃ :: c₂ :: c₁ :: c₀ :: f :: payload
          = t :: (BigEndian.bytes32 (BigEndian.word32 c₃ c₂ c₁ c₀) ++ f :: payload) := by
        rw [hid]
        rfl
      rw [hsplit]
      rcases hcr with ht | ht
      · obtain rfl : t = typeCommand := Option.some_inj.mp ht
        exact ⟨.command _ f, payload, rfl⟩
      · obtain rfl : t = typeResponse := Option.some_inj.mp ht
        exact ⟨.response _ f, payload, rfl⟩

theorem wellFormed_body {m : DecodedPacketMetadata} {payload : List UInt8}
    (h : (m.packet payload).body.length ≤ cfg.maxPacketLen) :
    WellFormed cfg (m.packet payload).body := by
  have hlen := Packet.length_body (m.packet payload)
  rw [m.length_header_packet] at hlen
  refine ⟨?_, h, Packet.drop_body _, ?_⟩
  · rcases m with ⟨c, e⟩ | ⟨c, s⟩ | e <;> rw [hlen, DecodedPacketMetadata.headerLength] <;> omega
  · rcases m with ⟨c, e⟩ | ⟨c, s⟩ | e
    · refine Or.inr ⟨Or.inl rfl, ?_⟩
      rw [hlen, DecodedPacketMetadata.headerLength]
      omega
    · refine Or.inr ⟨Or.inr rfl, ?_⟩
      rw [hlen, DecodedPacketMetadata.headerLength]
      omega
    · exact Or.inl rfl

/-- **The grammar describes the packets** that fit a frame. -/
theorem wellFormed_iff {body : List UInt8} :
    WellFormed cfg body ↔ body.length ≤ cfg.maxPacketLen ∧
      ∃ (m : DecodedPacketMetadata) (payload : List UInt8), body = (m.packet payload).body := by
  constructor
  · intro h
    exact ⟨h.length_le, h.exists_packet⟩
  · rintro ⟨hlen, m, payload, rfl⟩
    exact wellFormed_body hlen

/-! ## Acceptance -/

theorem SerialPacketsDecoder.receiver_feed_of_flag {d : SerialPacketsDecoder cfg}
    {history : List UInt8} (hhist : history.getLast? = some packetFlag) (segment : List UInt8) :
    ((d.feed history).feed segment).receiver
      = Receiver.run hdlc cfg.maxPacketLen Receiver.opened segment := by
  obtain ⟨rest, rfl⟩ := List.getLast?_eq_some_iff.mp hhist
  rw [SerialPacketsDecoder.receiver_feed, SerialPacketsDecoder.receiver_feed, ← hdlc_flag,
    Receiver.run_concat_flag]

/-- **The decoder accepts exactly the packet grammar.** After any history that ends in a flag, the
flag that closes a segment reports a packet if and only if the segment is the stuffing of a
well-formed body, and then shows the fields of that body; the bytes of the segment report nothing.
The first flag ever reports nothing, and a byte that reports nothing changes nothing that was
reported. -/
theorem decoder_accepts_grammar (packetBuffer : Vector UInt8 cfg.maxPacketLen)
    (metadata : DecodedPacketMetadata) (dataMemory : Vector UInt8 cfg.maxPacketDataLen) :
    let fresh := SerialPacketsDecoder.fresh packetBuffer metadata dataMemory
    (∀ history segment : List UInt8, history.getLast? = some packetFlag → packetFlag ∉ segment →
      segment.getLast? ≠ some packetEsc →
        let d := fresh.feed history
        (∀ pre b post, segment = pre ++ b :: post →
          ((d.feed pre).decodeNextByte b).hasNewPacket = false) ∧
        (((d.feed segment).decodeNextByte packetFlag).hasNewPacket = true ↔
          ∃ body, segment = hdlc.stuff body ∧ WellFormed cfg body) ∧
        ∀ body, segment = hdlc.stuff body → WellFormed cfg body →
          ((d.feed segment).decodeNextByte packetFlag).decoder.decodedMetadata.FieldsOf body) ∧
    (∀ history : List UInt8, packetFlag ∉ history →
      ((fresh.feed history).decodeNextByte packetFlag).hasNewPacket = false) ∧
    ∀ (history : List UInt8) (b : UInt8),
      let d := fresh.feed history
      (d.decodeNextByte b).hasNewPacket = false →
        (d.decodeNextByte b).decoder.decodedMetadata = d.decodedMetadata ∧
          (d.decodeNextByte b).decoder.decodedData = d.decodedData := by
  intro fresh
  refine ⟨?_, ?_, ?_⟩
  · intro history segment hhist hfree hlast d
    have hrec : (d.feed segment).receiver
        = Receiver.run hdlc cfg.maxPacketLen Receiver.opened segment :=
      SerialPacketsDecoder.receiver_feed_of_flag hhist segment
    -- the state after the segment is a function of the segment, whatever the history was
    refine ⟨?_, ?_, ?_⟩
    · rintro pre b post rfl
      have hb : b ≠ packetFlag := fun hb ↦ hfree (by simp [hb])
      rw [← Bool.not_eq_true, SerialPacketsDecoder.hasNewPacket_decodeNextByte_iff]
      rintro ⟨m, payload, hcloses⟩
      rw [Receiver.closes_of_ne hb] at hcloses
      exact Option.some_ne_none _ hcloses.symm
    · rw [SerialPacketsDecoder.hasNewPacket_decodeNextByte_iff, hrec]
      constructor
      · rintro ⟨m, payload, hcloses⟩
        obtain ⟨hseg, hlen⟩ := (Receiver.closes_run_iff_stuff hfree hlast).mp hcloses
        exact ⟨_, hseg, wellFormed_body hlen⟩
      · rintro ⟨body, hseg, hwf⟩
        obtain ⟨m, payload, rfl⟩ := hwf.exists_packet
        exact ⟨m, payload, (Receiver.closes_run_iff_stuff hfree hlast).mpr ⟨hseg, hwf.length_le⟩⟩
    · intro body hseg hwf
      obtain ⟨m, payload, rfl⟩ := hwf.exists_packet
      have hcloses : Receiver.closes hdlc (d.feed segment).receiver packetFlag
          = some (m.packet payload).body := by
        rw [hrec]
        exact (Receiver.closes_run_iff_stuff hfree hlast).mpr ⟨hseg, hwf.length_le⟩
      rw [(SerialPacketsDecoder.decodeNextByte_of_closes hcloses).2.1]
      exact m.fieldsOf_body payload
  · intro history hfree
    rw [← Bool.not_eq_true, SerialPacketsDecoder.hasNewPacket_decodeNextByte_iff]
    rintro ⟨m, payload, hcloses⟩
    obtain ⟨-, hin, -⟩ := Receiver.closes_eq_some_iff.mp hcloses
    rw [SerialPacketsDecoder.receiver_feed, SerialPacketsDecoder.receiver_fresh,
      Receiver.inFrame_run_of_flag_free rfl hfree] at hin
    exact Bool.false_ne_true hin
  · intro history b d h
    exact SerialPacketsDecoder.decodeNextByte_of_not_new h

/-- A message whose payload is a flag and an escape. -/
theorem decoder_accepts_grammar_escapedPayload :
    let d := (@SerialPacketsDecoder.fresh Config.default (Vector.replicate _ 0) (.message 0)
      (Vector.replicate _ 0)).feed [packetFlag]
    let r := (d.feed [0x03, 0x20, 0x7D, 0x5E, 0x7D, 0x5D, 0x1D, 0xB6]).decodeNextByte packetFlag
    r.hasNewPacket = true ∧
      r.decoder.decodedMetadata.FieldsOf (Packet.message 0x20 [0x7E, 0x7D]).body := by
  obtain ⟨hsegments, -, -⟩ := @decoder_accepts_grammar Config.default (Vector.replicate _ 0)
    (.message 0) (Vector.replicate _ 0)
  obtain ⟨-, hiff, hfields⟩ := hsegments [packetFlag]
    [0x03, 0x20, 0x7D, 0x5E, 0x7D, 0x5D, 0x1D, 0xB6] rfl (by decide) (by decide)
  have hstuff : [0x03, 0x20, 0x7D, 0x5E, 0x7D, 0x5D, 0x1D, 0xB6]
      = hdlc.stuff (Packet.message 0x20 [0x7E, 0x7D]).body := by decide
  have hwf : WellFormed Config.default
      ((DecodedPacketMetadata.message 0x20).packet [0x7E, 0x7D]).body :=
    wellFormed_body (by decide)
  exact ⟨hiff.mpr ⟨_, hstuff, hwf⟩, hfields _ hstuff hwf⟩

/-! ## Payloads -/

/-- The decoder holds the packet of this body with nothing lost: no error flag is set, nothing has
been read, and the data are the bytes between the header and the CRC. -/
structure HoldsPayloadOf (d : SerialPacketsDecoder cfg) (body : List UInt8) : Prop where
  noWriteErrors : d.decodedData.hadWriteErrors = false
  noReadErrors : d.decodedData.hadReadErrors = false
  unread : d.decodedData.bytesRead = 0
  contents : d.decodedData.contents
    = (body.drop d.decodedMetadata.headerLength).take
        (body.length - d.decodedMetadata.headerLength - 2)

/-- Every report made over the sequence is of a frame whose payload the decoder then holds, and no
frame with a payload too long for a `SerialPacketsData` is reported. -/
def KeepsPayload (fresh : SerialPacketsDecoder cfg) (bytes : List UInt8) : Prop :=
  ∀ pre b post, bytes = pre ++ b :: post →
    (((fresh.feed pre).decodeNextByte b).hasNewPacket = true →
      ∃ body pending, EndsInFrame hdlc (pre ++ [b]) body pending ∧
        HoldsPayloadOf ((fresh.feed pre).decodeNextByte b).decoder body) ∧
    ∀ (m : DecodedPacketMetadata) (payload : List UInt8) (pending : Bool),
      EndsInFrame hdlc (pre ++ [b]) (m.packet payload).body pending →
        cfg.maxPacketDataLen < payload.length →
          ((fresh.feed pre).decodeNextByte b).hasNewPacket = false

/-- No part of the sequence is a message frame with a payload too long for a `SerialPacketsData`
although the frame is short enough for the decoder; a dangling escape counts as a byte. -/
def NoOversizeMessage (cfg : Config) (bytes : List UInt8) : Prop :=
  ∀ (pre : List UInt8) (endpoint : UInt8) (payload : List UInt8) (pending : Bool), pre <+: bytes →
    EndsInFrame hdlc pre (Packet.message endpoint payload).body pending →
      (Packet.message endpoint payload).body.length + (if pending then 1 else 0)
        ≤ cfg.maxPacketLen →
          payload.length ≤ cfg.maxPacketDataLen

section Payloads

variable {packetBuffer : Vector UInt8 cfg.maxPacketLen} {metadata : DecodedPacketMetadata}
  {dataMemory : Vector UInt8 cfg.maxPacketDataLen}

private theorem closes_feed_fresh_iff {pre body : List UInt8} {b : UInt8} :
    Receiver.closes hdlc
        ((SerialPacketsDecoder.fresh packetBuffer metadata dataMemory).feed pre).receiver b
        = some body ↔
      ∃ pending, EndsInFrame hdlc (pre ++ [b]) body pending ∧
        body.length + (if pending then 1 else 0) ≤ cfg.maxPacketLen := by
  rw [SerialPacketsDecoder.receiver_feed, SerialPacketsDecoder.receiver_fresh,
    closes_run_dropped_iff]

private theorem hasNewPacket_of_endsInFrame {pre payload : List UInt8} {b : UInt8}
    {m : DecodedPacketMetadata} {pending : Bool}
    (hframe : EndsInFrame hdlc (pre ++ [b]) (m.packet payload).body pending)
    (hfits : (m.packet payload).body.length + (if pending then 1 else 0) ≤ cfg.maxPacketLen) :
    (((SerialPacketsDecoder.fresh packetBuffer metadata dataMemory).feed pre).decodeNextByte
      b).hasNewPacket = true :=
  (SerialPacketsDecoder.decodeNextByte_of_closes
    (closes_feed_fresh_iff.mpr ⟨pending, hframe, hfits⟩)).1

theorem holdsPayloadOf_of_closes {d : SerialPacketsDecoder cfg} {b : UInt8}
    {m : DecodedPacketMetadata} {payload : List UInt8}
    (hcloses : Receiver.closes hdlc d.receiver b = some (m.packet payload).body)
    (hfit : payload.length ≤ cfg.maxPacketDataLen) :
    HoldsPayloadOf (d.decodeNextByte b).decoder (m.packet payload).body := by
  obtain ⟨-, hmeta, hdata⟩ := SerialPacketsDecoder.decodeNextByte_of_closes hcloses
  have hclear : d.decodedData.clear.size + payload.length ≤ cfg.maxPacketDataLen := by
    rwa [SerialPacketsBuffer.size_clear, Nat.zero_add]
  refine ⟨?_, ?_, ?_, ?_⟩
  · rw [hdata]
    exact SerialPacketsBuffer.hadWriteErrors_writeBytes rfl hclear
  · rw [hdata, SerialPacketsBuffer.hadReadErrors_writeBytes]
    rfl
  · rw [hdata, SerialPacketsBuffer.bytesRead_writeBytes]
    rfl
  · rw [hdata, hmeta, SerialPacketsBuffer.contents_writeBytes rfl hclear,
      SerialPacketsBuffer.contents_clear, List.nil_append, ← m.length_header_packet payload,
      Packet.take_drop_body, m.data_packet]

/-- Of the frames short enough for the decoder, only messages can have too long a payload. -/
theorem length_payload_le {m : DecodedPacketMetadata} {payload : List UInt8}
    (hno : ∀ endpoint, m = DecodedPacketMetadata.message endpoint →
    payload.length ≤ cfg.maxPacketDataLen)
    (hlen : (m.packet payload).body.length ≤ cfg.maxPacketLen) :
    payload.length ≤ cfg.maxPacketDataLen := by
  have hbody := Packet.length_body (m.packet payload)
  rw [m.length_header_packet, m.data_packet] at hbody
  rw [hbody, Config.maxPacketLen, maxPacketOverhead] at hlen
  rcases m with ⟨c, e⟩ | ⟨c, s⟩ | e
  · rw [DecodedPacketMetadata.headerLength] at hlen
    omega
  · rw [DecodedPacketMetadata.headerLength] at hlen
    omega
  · exact hno e rfl

/-- **Payloads are kept exactly when no message is too long.** -/
theorem keepsPayload_iff (packetBuffer : Vector UInt8 cfg.maxPacketLen)
    (metadata : DecodedPacketMetadata) (dataMemory : Vector UInt8 cfg.maxPacketDataLen)
    (bytes : List UInt8) :
    KeepsPayload (SerialPacketsDecoder.fresh packetBuffer metadata dataMemory) bytes ↔
      NoOversizeMessage cfg bytes := by
  constructor
  · rintro h pre endpoint payload pending ⟨post, rfl⟩ hframe hfits
    by_contra hlong
    obtain ⟨pre, b, rfl⟩ : ∃ pre' b, pre = pre' ++ [b] := by
      obtain ⟨history, segment, rfl, -⟩ := hframe
      exact ⟨history ++ packetFlag :: segment, packetFlag, by simp⟩
    obtain ⟨-, hrejects⟩ := h pre b post (by simp)
    have hnew := hrejects (.message endpoint) payload pending hframe (Nat.lt_of_not_le hlong)
    rw [hasNewPacket_of_endsInFrame (m := .message endpoint) hframe hfits] at hnew
    exact Bool.false_ne_true hnew.symm
  · rintro h pre b post rfl
    have hprefix : pre ++ [b] <+: pre ++ b :: post := ⟨post, by simp⟩
    -- the closed frame is the only one the bytes end in, and its payload fits
    have hclosed (hnew : (((SerialPacketsDecoder.fresh packetBuffer metadata dataMemory).feed
        pre).decodeNextByte b).hasNewPacket = true) :
        ∃ (m : DecodedPacketMetadata) (payload : List UInt8) (pending : Bool),
          EndsInFrame hdlc (pre ++ [b]) (m.packet payload).body pending ∧
            payload.length ≤ cfg.maxPacketDataLen ∧
            HoldsPayloadOf (((SerialPacketsDecoder.fresh packetBuffer metadata dataMemory).feed
              pre).decodeNextByte b).decoder (m.packet payload).body := by
      obtain ⟨m, payload, hcloses⟩ :=
        (SerialPacketsDecoder.hasNewPacket_decodeNextByte_iff _ _).mp hnew
      obtain ⟨pending, hframe, hfits⟩ := closes_feed_fresh_iff.mp hcloses
      have hlen : payload.length ≤ cfg.maxPacketDataLen := by
        refine length_payload_le ?_ (le_trans (Nat.le_add_right _ _) hfits)
        rintro endpoint rfl
        exact h (pre ++ [b]) endpoint payload pending hprefix hframe hfits
      exact ⟨m, payload, pending, hframe, hlen, holdsPayloadOf_of_closes hcloses hlen⟩
    refine ⟨?_, ?_⟩
    · intro hnew
      obtain ⟨m, payload, pending, hframe, -, hholds⟩ := hclosed hnew
      exact ⟨_, pending, hframe, hholds⟩
    · intro m payload pending hframe hlong
      rw [← Bool.not_eq_true]
      intro hnew
      obtain ⟨m', payload', pending', hframe', hlen, -⟩ := hclosed hnew
      obtain ⟨-, rfl⟩ := DecodedPacketMetadata.body_injective (hframe.unique hframe').1
      exact absurd hlen (Nat.not_le_of_lt hlong)

end Payloads

/-- A message with one byte of payload too many, between two flags. -/
def oversizeMessage : List UInt8 :=
  packetFlag :: Packet.wire false (.message 0 (List.replicate 101 0))

/-- The oversize message is reported. -/
theorem not_keepsPayload_oversizeMessage :
    ¬@KeepsPayload Config.default
      (SerialPacketsDecoder.fresh (Vector.replicate _ 0) (.message 0) (Vector.replicate _ 0))
      oversizeMessage := by
  intro h
  set body := (Packet.message 0 (List.replicate 101 0)).body with hbody
  have hbytes : oversizeMessage = (packetFlag :: hdlc.stuff body) ++ [packetFlag] := by
    simp [oversizeMessage, Packet.wire, hbody]
  have hframe : EndsInFrame hdlc ((packetFlag :: hdlc.stuff body) ++ [packetFlag]) body false :=
    ⟨[], hdlc.stuff body, rfl, Stuffing.flag_notMem_stuff _, by simp [Receiver.Spells]⟩
  have hfits : body.length + 0 ≤ Config.default.maxPacketLen := by
    rw [hbody, Packet.length_body]
    decide
  obtain ⟨-, hrejects⟩ := h _ packetFlag [] hbytes
  have hnew := hrejects (.message 0) (List.replicate 101 0) false hframe (by decide)
  rw [hasNewPacket_of_endsInFrame (m := .message 0) hframe hfits] at hnew
  exact Bool.false_ne_true hnew.symm

end SerialPackets

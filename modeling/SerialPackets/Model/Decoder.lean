import SerialPackets.Model.Logger
import SerialPackets.Model.Packet

/-!
# The decoder

`SerialPacketsDecoder`: a byte-driven receiver that collects the unstuffed bytes of a frame in a
fixed array and, at the flag that ends the frame, checks and takes it apart.

Array accesses are checked here, and so are the unsigned differences of lengths: `decodeNextByte?`
is `none` exactly when an index leaves the array or a difference would wrap. Under the one invariant
the code relies on, that the fill level stays within the array, this never happens; the invariant is
a field of `SerialPacketsDecoder`, on which the step is total.

Two results say what a step does. The receiving variables follow `Framing.Receiver`, and the frame a
flag closes is reported exactly when it is the body of a packet (`decodeNextByte_spec`).
-/

namespace SerialPackets

open FixedArray Framing

/-! ## Taking a frame apart -/

/-- `DecodedPacketMetadata`: the packet type with the fields of that type. -/
inductive DecodedPacketMetadata
  | command (cmdId : UInt32) (endpoint : UInt8)
  | response (cmdId : UInt32) (status : UInt8)
  | message (endpoint : UInt8)
  deriving DecidableEq

/-- The packet with these fields and a payload. -/
def DecodedPacketMetadata.packet {D : Type*} : DecodedPacketMetadata → D → Packet D
  | .command cmdId endpoint, data => .command cmdId endpoint data
  | .response cmdId status, data => .response cmdId status data
  | .message endpoint, data => .message endpoint data

/-- What `process_packet` finds in the buffer. -/
inductive ProcessOutcome
  | nothing
  | error (report : Report)
  | packet (metadata : DecodedPacketMetadata) (payload : List UInt8)

/-- `decode_uint16_at_index`. -/
def decodeUint16AtIndex? (load : ℕ → Option UInt8) (i : ℕ) : Option UInt16 := do
  some (BigEndian.word16 (← load i) (← load (i + 1)))

/-- `decode_uint32_at_index`. -/
def decodeUint32AtIndex? (load : ℕ → Option UInt8) (i : ℕ) : Option UInt32 := do
  some (BigEndian.word32 (← load i) (← load (i + 1)) (← load (i + 2)) (← load (i + 3)))

/-- The branches for commands and responses, which read the same fields: a command id at index 1, a
byte at index 5, and the payload from index 6 on. -/
def decodeWithCmdId? (load : ℕ → Option UInt8) (packetLen : ℕ) (tooShort : Report)
    (metadata : UInt32 → UInt8 → DecodedPacketMetadata) : Option ProcessOutcome :=
  if packetLen < 8 then some (.error tooShort)
  else do
    let cmdId ← decodeUint32AtIndex? load 1
    let field ← load 5
    let payload ← loadRange? load 6 (← sub? packetLen 8)
    some (.packet (metadata cmdId field) payload)

/-- Constructing the decoded packet by its type. -/
def decodeByType? (load : ℕ → Option UInt8) (packetLen : ℕ) : Option ProcessOutcome := do
  let packetType ← load 0
  if packetType = typeCommand then
    decodeWithCmdId? load packetLen (.commandTooShort packetLen) .command
  else if packetType = typeResponse then
    decodeWithCmdId? load packetLen (.responseTooShort packetLen) .response
  else if packetType = typeMessage then
    if packetLen < 4 then some (.error (.messageTooShort packetLen))
    else
      let endpoint ← load 1
      let payload ← loadRange? load 2 (← sub? packetLen 4)
      some (.packet (.message endpoint) payload)
  else some (.error (.invalidType packetType))

/-- The checks and field reads of `process_packet`, over any way of loading a byte of the packet
buffer. The destination of the payload is not touched here. -/
def processPacket? (load : ℕ → Option UInt8) (packetLen : ℕ) : Option ProcessOutcome :=
  if packetLen = 0 then some .nothing
  else if packetLen < minPacketLen then some (.error (.packetTooShort packetLen))
  else do
    let crcIndex ← sub? packetLen 2
    let packetCrc ← decodeUint16AtIndex? load crcIndex
    let computedCrc := serialPacketsGenCrc16 (← loadRange? load 0 crcIndex)
    if packetCrc ≠ computedCrc then some (.error (.badCrc packetCrc computedCrc))
    else decodeByType? load packetLen

/-! ### The packet grammar

On a complete frame body the checks accept exactly the bodies of packets. The body is split into
the part the CRC covers and the two CRC bytes. -/

theorem exists_append_pair {body : List UInt8} (h : 2 ≤ body.length) :
    ∃ covered b₁ b₀, body = covered ++ [b₁, b₀] := by
  obtain ⟨rest, b₀, rfl⟩ :=
    List.eq_nil_or_concat body |>.resolve_left (by rintro rfl; simp at h)
  obtain ⟨covered, b₁, rfl⟩ :=
    List.eq_nil_or_concat rest |>.resolve_left (by rintro rfl; simp at h)
  exact ⟨covered, b₁, b₀, by simp⟩

section Grammar

variable (covered : List UInt8) (b₁ b₀ : UInt8)

private theorem decodeWithCmdId?_of_le (tooShort : Report)
    (metadata : UInt32 → UInt8 → DecodedPacketMetadata) (h : 6 ≤ covered.length) :
    ∃ t cmdId field payload, covered = t :: (BigEndian.bytes32 cmdId ++ field :: payload) ∧
      decodeWithCmdId? (fun i ↦ (covered ++ [b₁, b₀])[i]?) (covered.length + 2) tooShort metadata
        = some (.packet (metadata cmdId field) payload) := by
  match covered, h with
  | t :: c₃ :: c₂ :: c₁ :: c₀ :: field :: payload, _ =>
    refine ⟨t, BigEndian.word32 c₃ c₂ c₁ c₀, field, payload, ?_, ?_⟩
    · rw [BigEndian.bytes32_word32]
      rfl
    · have hload : loadRange?
          (fun i ↦ (t :: c₃ :: c₂ :: c₁ :: c₀ :: field :: payload ++ [b₁, b₀])[i]?) 6
            payload.length = some payload := by
        rw [loadRange?_getElem? (by simp; omega)]
        simp
      have hsub : sub? ((t :: c₃ :: c₂ :: c₁ :: c₀ :: field :: payload).length + 2) 8
          = some payload.length := sub?_of_le (by simp)
      rw [decodeWithCmdId?, if_neg (by simp), hsub]
      simp only [Option.bind_eq_bind, Option.bind_some, hload]
      rfl

/-- The covered part of a packet with a command id determines the packet. -/
private theorem bytes32_append_inj {c d : UInt32} {e f : UInt8} {xs ys : List UInt8} :
    BigEndian.bytes32 c ++ e :: xs = BigEndian.bytes32 d ++ f :: ys ↔ c = d ∧ e = f ∧ xs = ys := by
  constructor
  · intro h
    obtain ⟨hid, hrest⟩ := List.append_inj h rfl
    rw [List.cons.injEq] at hrest
    have hd : c = BigEndian.word32 (d >>> 24).toUInt8 (d >>> 16).toUInt8 (d >>> 8).toUInt8
        (d >>> 0).toUInt8 := BigEndian.bytes32_eq_iff.mp hid
    rw [BigEndian.word32_bytes32] at hd
    exact ⟨hd, hrest⟩
  · rintro ⟨rfl, rfl, rfl⟩
    rfl

private theorem decodeWithCmdId?_append {ty : UInt8} {tooShort : Report}
    {metadata : UInt32 → UInt8 → DecodedPacketMetadata}
    (hcov : ∀ c f (payload : List UInt8), ((metadata c f).packet payload).covered
      = ty :: (BigEndian.bytes32 c ++ f :: payload))
    (htype : ∀ m (payload : List UInt8), (m.packet payload).covered.head? = some ty →
      ∃ c f, m = metadata c f)
    (hhead : covered.head? = some ty) :
    ∃ o, decodeWithCmdId? (fun i ↦ (covered ++ [b₁, b₀])[i]?) (covered.length + 2) tooShort metadata
        = some o ∧
      ∀ m payload, o = .packet m payload ↔ covered = (m.packet payload).covered := by
  by_cases hlen : 6 ≤ covered.length
  · obtain ⟨t, cmdId, field, payload, hsplit, hdec⟩ :=
      decodeWithCmdId?_of_le covered b₁ b₀ tooShort metadata hlen
    obtain rfl : t = ty := by simpa [hsplit] using hhead
    refine ⟨_, hdec, fun m payload' ↦ ?_⟩
    rw [hsplit, ProcessOutcome.packet.injEq]
    constructor
    · rintro ⟨rfl, rfl⟩
      exact (hcov _ _ _).symm
    · intro h
      obtain ⟨c, f, rfl⟩ := htype m payload' (by rw [← h]; rfl)
      rw [hcov, List.cons.injEq, bytes32_append_inj] at h
      obtain ⟨-, rfl, rfl, rfl⟩ := h
      exact ⟨rfl, rfl⟩
  · refine ⟨.error tooShort, if_pos (by omega), fun m payload ↦ ?_⟩
    have hne : covered ≠ (m.packet payload).covered := by
      intro h
      obtain ⟨c, f, rfl⟩ := htype m payload (by rw [← h]; exact hhead)
      rw [h, hcov] at hlen
      simp only [List.length_cons, List.length_append, BigEndian.length_bytes32] at hlen
      omega
    simp [hne]

private theorem decodeByType?_append (h : 2 ≤ covered.length) :
    ∃ o, decodeByType? (fun i ↦ (covered ++ [b₁, b₀])[i]?) (covered.length + 2) = some o ∧
      ∀ m payload, o = .packet m payload ↔ covered = (m.packet payload).covered := by
  match covered, h with
  | t :: e :: payload, _ =>
    have hload : (t :: e :: payload ++ [b₁, b₀])[0]? = some t := rfl
    rw [decodeByType?, hload]
    simp only [Option.bind_eq_bind, Option.bind_some]
    by_cases hcmd : t = typeCommand
    · rw [if_pos hcmd]
      refine decodeWithCmdId?_append _ b₁ b₀ ?_ ?_ (congrArg some hcmd)
      · simp [DecodedPacketMetadata.packet, Packet.covered, Packet.header, Packet.data]
      · rintro (⟨c, f⟩ | ⟨c, f⟩ | f) payload' hhead
        · exact ⟨c, f, rfl⟩
        · exact absurd (Option.some_inj.mp hhead) (by decide)
        · exact absurd (Option.some_inj.mp hhead) (by decide)
    · rw [if_neg hcmd]
      by_cases hresp : t = typeResponse
      · rw [if_pos hresp]
        refine decodeWithCmdId?_append _ b₁ b₀ ?_ ?_ (congrArg some hresp)
        · simp [DecodedPacketMetadata.packet, Packet.covered, Packet.header, Packet.data]
        · rintro (⟨c, f⟩ | ⟨c, f⟩ | f) payload' hhead
          · exact absurd (Option.some_inj.mp hhead) (by decide)
          · exact ⟨c, f, rfl⟩
          · exact absurd (Option.some_inj.mp hhead) (by decide)
      · rw [if_neg hresp]
        -- of the other types, only a message can start with this byte
        have hcov (m : DecodedPacketMetadata) (payload' : List UInt8) :
            t :: e :: payload = (m.packet payload').covered ↔
              t = typeMessage ∧ m = .message e ∧ payload = payload' := by
          rcases m with ⟨c, f⟩ | ⟨c, f⟩ | f
          · simp [DecodedPacketMetadata.packet, Packet.covered, Packet.header, hcmd]
          · simp [DecodedPacketMetadata.packet, Packet.covered, Packet.header, hresp]
          · simp [DecodedPacketMetadata.packet, Packet.covered, Packet.header, Packet.data, eq_comm]
        by_cases hmsg : t = typeMessage
        · rw [if_pos hmsg]
          have hrange : loadRange? (fun i ↦ (t :: e :: payload ++ [b₁, b₀])[i]?) 2 payload.length
              = some payload := by
            rw [loadRange?_getElem? (by simp; omega)]
            simp
          have hsub : sub? ((t :: e :: payload).length + 2) 4 = some payload.length :=
            sub?_of_le (by simp)
          refine ⟨.packet (.message e) payload, ?_, fun m payload' ↦ ?_⟩
          · rw [if_neg (by simp), hsub]
            simp only [Option.bind_some, hrange]
            rfl
          · rw [hcov, ProcessOutcome.packet.injEq]
            simp [hmsg, eq_comm]
        · refine ⟨_, if_neg hmsg, fun m payload' ↦ ?_⟩
          rw [hcov]
          simp [hmsg]

theorem processPacket?_append (h : 2 ≤ covered.length) :
    processPacket? (fun i ↦ (covered ++ [b₁, b₀])[i]?) (covered.length + 2)
      = if BigEndian.word16 b₁ b₀ ≠ serialPacketsGenCrc16 covered then
          some (.error (.badCrc (BigEndian.word16 b₁ b₀) (serialPacketsGenCrc16 covered)))
        else decodeByType? (fun i ↦ (covered ++ [b₁, b₀])[i]?) (covered.length + 2) := by
  have hcrc : decodeUint16AtIndex? (fun i ↦ (covered ++ [b₁, b₀])[i]?) covered.length
      = some (BigEndian.word16 b₁ b₀) := by
    simp [decodeUint16AtIndex?]
  have hrange : loadRange? (fun i ↦ (covered ++ [b₁, b₀])[i]?) 0 covered.length
      = some covered := by
    rw [loadRange?_getElem? (by simp)]
    simp
  have hmin : ¬covered.length + 2 < minPacketLen := by
    rw [minPacketLen, minPacketOverhead]
    omega
  rw [processPacket?, if_neg (by omega), if_neg hmin, sub?_of_le (by omega), Nat.add_sub_cancel]
  simp only [Option.bind_eq_bind, Option.bind_some, hcrc, hrange]

end Grammar

/-- **The packet grammar.** On a complete body all accesses are in range, and the outcome is a
packet exactly when the body is the one that packet is laid out as. -/
theorem processPacket?_spec (body : List UInt8) :
    ∃ o, processPacket? (fun i ↦ body[i]?) body.length = some o ∧
      ∀ m payload, o = .packet m payload ↔ body = (m.packet payload).body := by
  by_cases hlen : body.length < minPacketLen
  · have hne (m : DecodedPacketMetadata) (payload : List UInt8) :
        body ≠ (m.packet payload).body := by
      rintro rfl
      have hheader := (m.packet payload).two_le_length_header
      rw [Packet.length_body, minPacketLen, minPacketOverhead] at hlen
      omega
    by_cases hzero : body.length = 0
    · exact ⟨.nothing, if_pos hzero, fun m payload ↦ by simp [hne]⟩
    · refine ⟨.error (.packetTooShort body.length), ?_, fun m payload ↦ by simp [hne]⟩
      rw [processPacket?, if_neg hzero, if_pos hlen]
  · rw [minPacketLen, minPacketOverhead] at hlen
    obtain ⟨covered, b₁, b₀, rfl⟩ := exists_append_pair (show 2 ≤ body.length by omega)
    rw [List.length_append, List.length_cons, List.length_cons, List.length_nil] at hlen
    have hlen₂ : (covered ++ [b₁, b₀]).length = covered.length + 2 := by simp
    have hbody (m : DecodedPacketMetadata) (payload : List UInt8) :
        covered ++ [b₁, b₀] = (m.packet payload).body ↔
          covered = (m.packet payload).covered ∧
            BigEndian.word16 b₁ b₀ = serialPacketsGenCrc16 covered := by
      rw [Packet.body]
      constructor
      · intro h
        obtain ⟨h₁, h₂⟩ := List.append_inj' h rfl
        exact ⟨h₁, by rw [h₁]; exact (BigEndian.bytes16_eq_iff.mp h₂.symm).symm⟩
      · rintro ⟨h₁, h₂⟩
        rw [← h₁, BigEndian.bytes16_eq_iff.mpr h₂.symm]
    -- only a body with the right CRC gets as far as its type byte
    rw [hlen₂, processPacket?_append covered b₁ b₀ (by omega)]
    by_cases hok : BigEndian.word16 b₁ b₀ = serialPacketsGenCrc16 covered
    · obtain ⟨o, ho, hspec⟩ := decodeByType?_append covered b₁ b₀ (by omega)
      refine ⟨o, by rw [if_neg (not_not.mpr hok), ho], fun m payload ↦ ?_⟩
      rw [hspec, hbody, and_iff_left hok]
    · refine ⟨_, if_pos hok, fun m payload ↦ ?_⟩
      rw [hbody]
      simp [hok]

theorem DecodedPacketMetadata.body_injective {m m' : DecodedPacketMetadata}
    {payload payload' : List UInt8} (h : (m.packet payload).body = (m'.packet payload').body) :
    m = m' ∧ payload = payload' := by
  obtain ⟨o, -, hspec⟩ := processPacket?_spec (m.packet payload).body
  exact ProcessOutcome.packet.inj
    (((hspec m payload).mpr rfl).symm.trans ((hspec m' payload').mpr h))

/-! ### Reads below the fill level

Every function above gives the same result over a larger memory. -/

section Extends

variable {f g : ℕ → Option UInt8} (hfg : Extends f g)

include hfg

private theorem decodeUint16AtIndex?_of_extends {i : ℕ} {v : UInt16}
    (h : decodeUint16AtIndex? f i = some v) : decodeUint16AtIndex? g i = some v := by
  simp only [decodeUint16AtIndex?, Option.bind_eq_bind, Option.bind_eq_some_iff]
    at h ⊢
  obtain ⟨b₁, h₁, b₀, h₀, hv⟩ := h
  exact ⟨b₁, hfg _ _ h₁, b₀, hfg _ _ h₀, hv⟩

private theorem decodeUint32AtIndex?_of_extends {i : ℕ} {v : UInt32}
    (h : decodeUint32AtIndex? f i = some v) : decodeUint32AtIndex? g i = some v := by
  simp only [decodeUint32AtIndex?, Option.bind_eq_bind, Option.bind_eq_some_iff]
    at h ⊢
  obtain ⟨b₃, h₃, b₂, h₂, b₁, h₁, b₀, h₀, hv⟩ := h
  exact ⟨b₃, hfg _ _ h₃, b₂, hfg _ _ h₂, b₁, hfg _ _ h₁, b₀, hfg _ _ h₀, hv⟩

private theorem decodeWithCmdId?_of_extends {len : ℕ} {tooShort : Report}
    {metadata : UInt32 → UInt8 → DecodedPacketMetadata} {o : ProcessOutcome}
    (h : decodeWithCmdId? f len tooShort metadata = some o) :
    decodeWithCmdId? g len tooShort metadata = some o := by
  rw [decodeWithCmdId?] at h ⊢
  by_cases hlen : len < 8
  · rwa [if_pos hlen] at h ⊢
  · rw [if_neg hlen] at h ⊢
    simp only [Option.bind_eq_bind, Option.bind_eq_some_iff] at h ⊢
    obtain ⟨cmdId, hid, field, hfield, n, hn, payload, hpayload, ho⟩ := h
    exact ⟨cmdId, decodeUint32AtIndex?_of_extends hfg hid, field, hfg _ _ hfield, n, hn, payload,
      hfg.loadRange? hpayload, ho⟩

private theorem decodeByType?_of_extends {len : ℕ} {o : ProcessOutcome}
    (h : decodeByType? f len = some o) : decodeByType? g len = some o := by
  simp only [decodeByType?, Option.bind_eq_bind, Option.bind_eq_some_iff] at h ⊢
  obtain ⟨t, ht, h⟩ := h
  refine ⟨t, hfg _ _ ht, ?_⟩
  by_cases hcmd : t = typeCommand
  · rw [if_pos hcmd] at h ⊢
    exact decodeWithCmdId?_of_extends hfg h
  · rw [if_neg hcmd] at h ⊢
    by_cases hresp : t = typeResponse
    · rw [if_pos hresp] at h ⊢
      exact decodeWithCmdId?_of_extends hfg h
    · rw [if_neg hresp] at h ⊢
      by_cases hmsg : t = typeMessage ∧ ¬len < 4
      · rw [if_pos hmsg.1, if_neg hmsg.2] at h ⊢
        simp only [Option.bind_eq_some_iff] at h ⊢
        obtain ⟨endpoint, he, n, hn, payload, hpayload, ho⟩ := h
        exact ⟨endpoint, hfg _ _ he, n, hn, payload, hfg.loadRange? hpayload, ho⟩
      · by_cases htype : t = typeMessage
        · have hlen : len < 4 := not_not.mp fun hlen ↦ hmsg ⟨htype, hlen⟩
          rwa [if_pos htype, if_pos hlen] at h ⊢
        · rwa [if_neg htype] at h ⊢

theorem processPacket?_of_extends {len : ℕ} {o : ProcessOutcome}
    (h : processPacket? f len = some o) : processPacket? g len = some o := by
  rw [processPacket?] at h ⊢
  by_cases hzero : len = 0
  · rwa [if_pos hzero] at h ⊢
  · by_cases hmin : len < minPacketLen
    · rwa [if_neg hzero, if_pos hmin] at h ⊢
    · rw [if_neg hzero, if_neg hmin] at h ⊢
      simp only [Option.bind_eq_bind, Option.bind_eq_some_iff] at h ⊢
      obtain ⟨i, hi, crc, hcrc, covered, hcovered, h⟩ := h
      refine ⟨i, hi, crc, decodeUint16AtIndex?_of_extends hfg hcrc, covered,
        hfg.loadRange? hcovered, ?_⟩
      split at h <;> rename_i hne
      · rwa [if_pos hne]
      · rw [if_neg hne]
        exact decodeByType?_of_extends hfg h

end Extends

/-! ## The byte-driven machine -/

/-- The data members of `SerialPacketsDecoder`, without its logger reference. -/
structure DecoderState (cfg : Config) where
  packetBuffer : Vector UInt8 cfg.maxPacketLen
  packetLen : ℕ
  inPacket : Bool
  pendingEscape : Bool
  decodedMetadata : DecodedPacketMetadata
  decodedData : SerialPacketsData cfg

/-- What a decoder function returns and leaves behind. -/
structure DecodeResult (S : Type*) where
  hasNewPacket : Bool
  report : Option Report
  decoder : S

namespace DecoderState

variable {cfg : Config}

/-- `process_packet`. -/
def processPacket? (d : DecoderState cfg) : Option (DecodeResult (DecoderState cfg)) :=
  (SerialPackets.processPacket? (fun i ↦ d.packetBuffer[i]?) d.packetLen).map fun o ↦
    match o with
    | .nothing => ⟨false, none, d⟩
    | .error report => ⟨false, some report, d⟩
    | .packet metadata payload =>
      ⟨true, none, { d with decodedMetadata := metadata,
                            decodedData := d.decodedData.clear.writeBytes payload }⟩

/-- A frame is open and nothing of it has arrived. -/
def opened (d : DecoderState cfg) : DecoderState cfg :=
  { d with inPacket := true, packetLen := 0, pendingEscape := false }

/-- Waiting for a flag. -/
def dropped (d : DecoderState cfg) : DecoderState cfg :=
  { d with inPacket := false, packetLen := 0, pendingEscape := false }

/-- `_packet_buffer[_packet_len++] = b`. -/
def append? (d : DecoderState cfg) (b : UInt8) : Option (DecoderState cfg) :=
  (store? d.packetBuffer d.packetLen b).map fun buffer ↦
    { d with packetBuffer := buffer, packetLen := d.packetLen + 1 }

/-- `decode_next_byte`, undefined where an array access or a length leaves its range. -/
def decodeNextByte? (d : DecoderState cfg) (b : UInt8) :
    Option (DecodeResult (DecoderState cfg)) :=
  if d.inPacket = false ∧ b = packetFlag then some ⟨false, none, d.opened⟩
  -- not being in a packet is no reason to return: other bytes fall through
  else if b = packetFlag then
    d.processPacket?.map fun r ↦ { r with decoder := r.decoder.opened }
  else if d.packetLen ≥ cfg.maxPacketLen then some ⟨false, some .packetOverrun, d.dropped⟩
  else if d.pendingEscape then
    let b₁ := b ^^^ 0x20
    if b₁ ≠ packetFlag ∧ b₁ ≠ packetEsc then some ⟨false, some (.badEscape b₁), d.dropped⟩
    else (d.append? b₁).map fun d ↦ ⟨false, none, { d with pendingEscape := false }⟩
  else if b = packetEsc then some ⟨false, none, { d with pendingEscape := true }⟩
  else (d.append? b).map fun d ↦ ⟨false, none, d⟩

/-- The receiving variables, with the part of the buffer above the fill level forgotten. -/
def receiver (d : DecoderState cfg) : Receiver UInt8 :=
  ⟨d.inPacket, filled d.packetBuffer d.packetLen, d.pendingEscape⟩

@[simp] theorem receiver_opened (d : DecoderState cfg) : d.opened.receiver = Receiver.opened := by
  simp [receiver, opened, Receiver.opened]

@[simp] theorem receiver_dropped (d : DecoderState cfg) :
    d.dropped.receiver = Receiver.dropped := by
  simp [receiver, dropped, Receiver.dropped]

theorem append?_of_lt (d : DecoderState cfg) (b : UInt8) (h : d.packetLen < cfg.maxPacketLen) :
    ∃ d', d.append? b = some d' ∧ d'.packetLen = d.packetLen + 1 ∧
      d'.receiver = { d.receiver with body := d.receiver.body ++ [b] } ∧
      d'.decodedMetadata = d.decodedMetadata ∧ d'.decodedData = d.decodedData := by
  refine ⟨{ d with packetBuffer := d.packetBuffer.set d.packetLen b h,
                   packetLen := d.packetLen + 1 }, ?_, rfl, ?_, rfl, rfl⟩
  · rw [append?, store?_of_lt _ b h, Option.map_some]
  · rw [receiver, receiver]
    dsimp only
    rw [filled_set b h]

end DecoderState

/-- What becomes of the frame closed by a byte, if it closes one: the body of a packet is stored and
reported, anything else leaves the last packet in place. -/
inductive Delivery {cfg : Config} (d d' : DecoderState cfg) : Option (List UInt8) → Bool → Prop
  | nothing {closed : Option (List UInt8)}
      (hnone : ∀ body ∈ closed, ∀ (m : DecodedPacketMetadata) payload,
        body ≠ (m.packet payload).body)
      (hmeta : d'.decodedMetadata = d.decodedMetadata) (hdata : d'.decodedData = d.decodedData) :
      Delivery d d' closed false
  | packet {m : DecodedPacketMetadata} {payload : List UInt8}
      (hmeta : d'.decodedMetadata = m)
      (hdata : d'.decodedData = d.decodedData.clear.writeBytes payload) :
      Delivery d d' (some (m.packet payload).body) true

theorem Delivery.none {cfg : Config} {d d' : DecoderState cfg}
    (hmeta : d'.decodedMetadata = d.decodedMetadata) (hdata : d'.decodedData = d.decodedData) :
    Delivery d d' Option.none false :=
  .nothing (fun _ h ↦ absurd h (by simp)) hmeta hdata

theorem Delivery.opened {cfg : Config} {d d' : DecoderState cfg} {closed : Option (List UInt8)}
    {hasNewPacket : Bool} (h : Delivery d d' closed hasNewPacket) :
    Delivery d d'.opened closed hasNewPacket := by
  cases h with
  | nothing hnone hmeta hdata => exact .nothing hnone hmeta hdata
  | packet hmeta hdata => exact .packet hmeta hdata

namespace DecoderState

variable {cfg : Config} {d : DecoderState cfg}

/-- `process_packet` reads only cells below the fill level, and stores exactly the packets. -/
private theorem processPacket?_delivery (hlen : d.packetLen ≤ cfg.maxPacketLen) :
    ∃ r, d.processPacket? = some r ∧ r.decoder.packetLen = d.packetLen ∧
      Delivery d r.decoder (some (filled d.packetBuffer d.packetLen)) r.hasNewPacket := by
  obtain ⟨o, ho, hspec⟩ := processPacket?_spec (filled d.packetBuffer d.packetLen)
  rw [length_filled hlen] at ho
  have hbuffer := processPacket?_of_extends (extends_filled d.packetBuffer d.packetLen) ho
  rw [processPacket?, hbuffer, Option.map_some]
  cases o with
  | nothing =>
    refine ⟨_, rfl, rfl, .nothing ?_ rfl rfl⟩
    rintro _ ⟨rfl⟩ m payload hbody
    exact absurd ((hspec m payload).mpr hbody) (by simp)
  | error report =>
    refine ⟨_, rfl, rfl, .nothing ?_ rfl rfl⟩
    rintro _ ⟨rfl⟩ m payload hbody
    exact absurd ((hspec m payload).mpr hbody) (by simp)
  | packet m payload =>
    rw [(hspec m payload).mp rfl]
    exact ⟨_, rfl, rfl, .packet rfl rfl⟩

private theorem decodeNextByte?_flag (hlen : d.packetLen ≤ cfg.maxPacketLen) :
    ∃ r, d.decodeNextByte? packetFlag = some r ∧ r.decoder.packetLen ≤ cfg.maxPacketLen ∧
      r.decoder.receiver = Receiver.opened ∧
      Delivery d r.decoder (Receiver.closes hdlc d.receiver packetFlag) r.hasNewPacket := by
  by_cases hin : d.inPacket = false
  · refine ⟨⟨false, none, d.opened⟩, if_pos ⟨hin, rfl⟩, Nat.zero_le _, receiver_opened d, ?_⟩
    have hcloses : Receiver.closes hdlc d.receiver packetFlag = none := by
      simp [Receiver.closes, receiver, hin]
    rw [hcloses]
    exact .none rfl rfl
  · obtain ⟨r, hr, -, hdelivery⟩ := processPacket?_delivery hlen
    have hcloses : Receiver.closes hdlc d.receiver packetFlag
        = some (filled d.packetBuffer d.packetLen) := by
      simp [Receiver.closes, receiver, hin]
    refine ⟨{ r with decoder := r.decoder.opened }, ?_, Nat.zero_le _, receiver_opened _, ?_⟩
    · rw [decodeNextByte?, if_neg (fun h ↦ hin h.1), if_pos rfl, hr, Option.map_some]
    · rw [hcloses]
      exact hdelivery.opened

private theorem decodeNextByte?_of_ne {b : UInt8} (hb : b ≠ packetFlag)
    (hlen : d.packetLen ≤ cfg.maxPacketLen) :
    ∃ r, d.decodeNextByte? b = some r ∧ r.decoder.packetLen ≤ cfg.maxPacketLen ∧
      r.decoder.receiver = Receiver.push hdlc cfg.maxPacketLen d.receiver b ∧
      r.decoder.decodedMetadata = d.decodedMetadata ∧ r.decoder.decodedData = d.decodedData ∧
      r.hasNewPacket = false := by
  have hbody : d.receiver.body.length = d.packetLen := length_filled hlen
  have hpend : d.receiver.pending = d.pendingEscape := rfl
  rw [decodeNextByte?, if_neg (fun h ↦ hb h.2), if_neg hb, Receiver.push, hbody, hpend]
  by_cases hfull : cfg.maxPacketLen ≤ d.packetLen
  · rw [if_pos hfull, if_pos hfull]
    exact ⟨_, rfl, Nat.zero_le _, receiver_dropped d, rfl, rfl, rfl⟩
  rw [if_neg hfull, if_neg hfull]
  have hlt : d.packetLen < cfg.maxPacketLen := Nat.lt_of_not_le hfull
  cases hesc : d.pendingEscape with
  | true =>
    rw [if_pos rfl, if_pos rfl]
    by_cases hbad : b ^^^ 0x20 ≠ packetFlag ∧ b ^^^ 0x20 ≠ packetEsc
    · have hspecial : hdlc.special (hdlc.mask b) = false :=
        hdlc_special_eq_false_iff.mpr (not_or.mpr hbad)
      rw [hspecial, if_neg Bool.false_ne_true]
      exact ⟨_, if_pos hbad, Nat.zero_le _, receiver_dropped d, rfl, rfl, rfl⟩
    · have hspecial : hdlc.special (hdlc.mask b) = true :=
        hdlc_special_iff.mpr (by rwa [← not_or, not_not] at hbad)
      obtain ⟨d', hd', hlen', hrec, hmeta, hdata⟩ := append?_of_lt d (b ^^^ 0x20) hlt
      rw [hspecial, if_pos rfl]
      refine ⟨⟨false, none, { d' with pendingEscape := false }⟩, ?_, by dsimp only; omega, ?_,
        hmeta,
        hdata, rfl⟩
      · rw [if_neg hbad, hd', Option.map_some]
      · have hrec' := Receiver.ext_iff.mp hrec
        exact Receiver.ext_iff.mpr ⟨hrec'.1, hrec'.2.1, rfl⟩
  | false =>
    rw [if_neg Bool.false_ne_true, if_neg Bool.false_ne_true]
    by_cases hb' : b = packetEsc
    · rw [if_pos hb', hdlc_esc, if_pos hb']
      exact ⟨_, rfl, hlen, rfl, rfl, rfl, rfl⟩
    · obtain ⟨d', hd', hlen', hrec, hmeta, hdata⟩ := append?_of_lt d b hlt
      rw [if_neg hb', hdlc_esc, if_neg hb', hd', Option.map_some]
      refine ⟨_, rfl, by dsimp only; omega, ?_, hmeta, hdata, rfl⟩
      have hrec' := Receiver.ext_iff.mp hrec
      exact Receiver.ext_iff.mpr ⟨hrec'.1, hrec'.2.1, hrec'.2.2.trans hesc⟩

/-- **One byte.** Below the length limit every access is in range; the receiving variables move as
those of the framing receiver, and the frame that the byte closes is delivered. -/
theorem decodeNextByte?_spec (b : UInt8) (hlen : d.packetLen ≤ cfg.maxPacketLen) :
    ∃ r, d.decodeNextByte? b = some r ∧ r.decoder.packetLen ≤ cfg.maxPacketLen ∧
      r.decoder.receiver = Receiver.next hdlc cfg.maxPacketLen d.receiver b ∧
      Delivery d r.decoder (Receiver.closes hdlc d.receiver b) r.hasNewPacket := by
  by_cases hb : b = packetFlag
  · subst hb
    exact decodeNextByte?_flag hlen
  · obtain ⟨r, hr, hlen', hrec, hmeta, hdata, hnew⟩ := decodeNextByte?_of_ne hb hlen
    refine ⟨r, hr, hlen', by rw [hrec, Receiver.next_of_ne hb], ?_⟩
    rw [Receiver.closes_of_ne hb, hnew]
    exact .none hmeta hdata

end DecoderState

/-! ## The decoder -/

/-- `SerialPacketsDecoder`: the data members with the invariant the code relies on. -/
structure SerialPacketsDecoder (cfg : Config) extends DecoderState cfg where
  packetLen_le : packetLen ≤ cfg.maxPacketLen

namespace SerialPacketsDecoder

variable {cfg : Config}

/-- A new decoder. The buffers and the metadata hold whatever the memory held. -/
def fresh (packetBuffer : Vector UInt8 cfg.maxPacketLen) (metadata : DecodedPacketMetadata)
    (dataMemory : Vector UInt8 cfg.maxPacketDataLen) : SerialPacketsDecoder cfg where
  packetBuffer := packetBuffer
  packetLen := 0
  inPacket := false
  pendingEscape := false
  decodedMetadata := metadata
  decodedData := .fresh dataMemory
  packetLen_le := Nat.zero_le _

theorem decodeNextByte?_isSome (d : SerialPacketsDecoder cfg) (b : UInt8) :
    (d.toDecoderState.decodeNextByte? b).isSome = true := by
  obtain ⟨r, hr, -⟩ := DecoderState.decodeNextByte?_spec b d.packetLen_le
  rw [hr, Option.isSome_some]

/-- `decode_next_byte`. -/
def decodeNextByte (d : SerialPacketsDecoder cfg) (b : UInt8) :
    DecodeResult (SerialPacketsDecoder cfg) :=
  let r := (d.toDecoderState.decodeNextByte? b).get (d.decodeNextByte?_isSome b)
  ⟨r.hasNewPacket, r.report, ⟨r.decoder, by
    obtain ⟨r', hr', hlen, -⟩ := DecoderState.decodeNextByte?_spec b d.packetLen_le
    simpa [r, hr'] using hlen⟩⟩

/-- Reading the decoded data moves their cursor. -/
def applyRead (d : SerialPacketsDecoder cfg) (op : SerialPacketsBuffer.ReadOp) :
    SerialPacketsDecoder cfg :=
  { d with decodedData := d.decodedData.applyRead op }

/-- What `packet_metadata()` and `packet_data()` show. -/
def packet (d : SerialPacketsDecoder cfg) : Packet (List UInt8) :=
  d.decodedMetadata.packet d.decodedData.contents

/-- **The step of the decoder.** -/
theorem decodeNextByte_spec (d : SerialPacketsDecoder cfg) (b : UInt8) :
    (d.decodeNextByte b).decoder.receiver = Receiver.next hdlc cfg.maxPacketLen d.receiver b ∧
      Delivery d.toDecoderState (d.decodeNextByte b).decoder.toDecoderState
        (Receiver.closes hdlc d.receiver b) (d.decodeNextByte b).hasNewPacket := by
  obtain ⟨r, hr, -, hrec, hdelivery⟩ := DecoderState.decodeNextByte?_spec b d.packetLen_le
  have hget : (d.toDecoderState.decodeNextByte? b).get (d.decodeNextByte?_isSome b) = r := by
    simp [hr]
  rw [decodeNextByte]
  dsimp only
  rw [hget]
  exact ⟨hrec, hdelivery⟩

/-- **What a byte delivers.** A packet is reported exactly when the byte closes the body of one. -/
theorem hasNewPacket_decodeNextByte_iff (d : SerialPacketsDecoder cfg) (b : UInt8) :
    (d.decodeNextByte b).hasNewPacket = true ↔
      ∃ (m : DecodedPacketMetadata) (payload : List UInt8),
        Receiver.closes hdlc d.receiver b = some (m.packet payload).body := by
  obtain ⟨-, h⟩ := d.decodeNextByte_spec b
  generalize (d.decodeNextByte b).hasNewPacket = new at h ⊢
  generalize Receiver.closes hdlc d.receiver b = closed at h ⊢
  cases h with
  | nothing hnone hmeta hdata =>
    refine ⟨fun h ↦ absurd h Bool.false_ne_true, ?_⟩
    rintro ⟨m, payload, hclosed⟩
    exact absurd rfl (hnone _ hclosed m payload)
  | packet hmeta hdata => exact ⟨fun _ ↦ ⟨_, _, rfl⟩, fun _ ↦ rfl⟩

theorem decodeNextByte_of_closes {d : SerialPacketsDecoder cfg} {b : UInt8}
    {m : DecodedPacketMetadata} {payload : List UInt8}
    (h : Receiver.closes hdlc d.receiver b = some (m.packet payload).body) :
    (d.decodeNextByte b).hasNewPacket = true ∧ (d.decodeNextByte b).decoder.decodedMetadata = m ∧
      (d.decodeNextByte b).decoder.decodedData = d.decodedData.clear.writeBytes payload := by
  obtain ⟨-, hdelivery⟩ := d.decodeNextByte_spec b
  rw [h] at hdelivery
  generalize (d.decodeNextByte b).hasNewPacket = new at hdelivery ⊢
  generalize hbody : some (m.packet payload).body = closed at hdelivery
  cases hdelivery with
  | nothing hnone hmeta hdata => exact absurd rfl (hnone _ hbody.symm m payload)
  | packet hmeta hdata =>
    obtain ⟨rfl, rfl⟩ := DecodedPacketMetadata.body_injective (Option.some_inj.mp hbody)
    exact ⟨rfl, hmeta, hdata⟩

theorem decodeNextByte_of_not_new {d : SerialPacketsDecoder cfg} {b : UInt8}
    (h : (d.decodeNextByte b).hasNewPacket = false) :
    (d.decodeNextByte b).decoder.decodedMetadata = d.decodedMetadata ∧
      (d.decodeNextByte b).decoder.decodedData = d.decodedData := by
  obtain ⟨-, hdelivery⟩ := d.decodeNextByte_spec b
  rw [h] at hdelivery
  generalize Receiver.closes hdlc d.receiver b = closed at hdelivery
  cases hdelivery with
  | nothing hnone hmeta hdata => exact ⟨hmeta, hdata⟩

/-! ### Byte sequences -/

/-- The decoder after a sequence of bytes. -/
def feed (d : SerialPacketsDecoder cfg) (bytes : List UInt8) : SerialPacketsDecoder cfg :=
  bytes.foldl (fun d b ↦ (d.decodeNextByte b).decoder) d

/-- What is reported at a byte: the packet, where `decode_next_byte` returns `true`. -/
def reportAt (d : SerialPacketsDecoder cfg) (b : UInt8) : Option (Packet (List UInt8)) :=
  let r := d.decodeNextByte b
  if r.hasNewPacket then some r.decoder.packet else none

/-- What is reported at each byte of a sequence. -/
def reports (d : SerialPacketsDecoder cfg) : List UInt8 → List (Option (Packet (List UInt8)))
  | [] => []
  | b :: bytes => d.reportAt b :: (d.decodeNextByte b).decoder.reports bytes

@[simp] theorem feed_nil (d : SerialPacketsDecoder cfg) : d.feed [] = d := rfl

@[simp] theorem feed_cons (d : SerialPacketsDecoder cfg) (b : UInt8) (bytes : List UInt8) :
    d.feed (b :: bytes) = (d.decodeNextByte b).decoder.feed bytes := rfl

theorem feed_append (d : SerialPacketsDecoder cfg) (as bs : List UInt8) :
    d.feed (as ++ bs) = (d.feed as).feed bs := List.foldl_append

@[simp] theorem reports_nil (d : SerialPacketsDecoder cfg) : d.reports [] = [] := rfl

theorem reports_append (d : SerialPacketsDecoder cfg) (as bs : List UInt8) :
    d.reports (as ++ bs) = d.reports as ++ (d.feed as).reports bs := by
  induction as generalizing d with
  | nil => rfl
  | cons a as ih => rw [List.cons_append, reports, reports, ih, feed_cons, List.cons_append]

/-- **The receiving variables over a sequence** are the framing receiver's. -/
theorem receiver_feed (d : SerialPacketsDecoder cfg) (bytes : List UInt8) :
    (d.feed bytes).receiver = Receiver.run hdlc cfg.maxPacketLen d.receiver bytes := by
  induction bytes generalizing d with
  | nil => rfl
  | cons b bytes ih => rw [feed_cons, ih, (d.decodeNextByte_spec b).1, Receiver.run_cons]

@[simp] theorem receiver_fresh (packetBuffer : Vector UInt8 cfg.maxPacketLen)
    (metadata : DecodedPacketMetadata) (dataMemory : Vector UInt8 cfg.maxPacketDataLen) :
    (fresh packetBuffer metadata dataMemory).receiver = Receiver.dropped := by
  rw [DecoderState.receiver, fresh, filled_zero]
  rfl

theorem reportAt_of_closes_none {d : SerialPacketsDecoder cfg} {b : UInt8}
    (h : Receiver.closes hdlc d.receiver b = none) : d.reportAt b = none := by
  refine if_neg fun hnew ↦ ?_
  obtain ⟨m, payload, hclosed⟩ := (d.hasNewPacket_decodeNextByte_iff b).mp hnew
  rw [h] at hclosed
  exact Option.some_ne_none _ hclosed.symm

theorem reports_of_flag_free (d : SerialPacketsDecoder cfg) {bytes : List UInt8}
    (h : packetFlag ∉ bytes) : d.reports bytes = List.replicate bytes.length none := by
  induction bytes generalizing d with
  | nil => rfl
  | cons b bytes ih =>
    rw [List.mem_cons, not_or] at h
    rw [reports, ih _ h.2, reportAt_of_closes_none (Receiver.closes_of_ne (Ne.symm h.1))]
    rfl

end SerialPacketsDecoder

end SerialPackets

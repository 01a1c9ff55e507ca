import SerialPackets.Codec.Grammar

/-!
# Malformed input

What the decoder does with bytes that are not a sequence of good frames: frames cut off inside an
escape, bytes outside a packet, and noise of any kind.

The flag is tested before the pending escape, so that a frame cut off right after an escape byte is
delivered when the part in front of the escape happens to be complete
(`abortRejected_iff`). The first test of `decode_next_byte` returns only at a flag, so that a
decoder waiting for one collects and reports on other bytes like inside a packet
(`ignoresOutside_iff`). Memory is safe all the same: whatever arrives, every access is in range and
what is decoded never depends on what earlier frames left in the buffer (`feed?_fresh_inRange`).
-/

namespace SerialPackets

open FixedArray Framing

variable {cfg : Config}

/-! ## Frames cut inside an escape -/

/-- The flag behind the aborted segment `cut`, left off right after an escape byte, reports no
packet. -/
def AbortRejected (fresh : SerialPacketsDecoder cfg) (history cut : List UInt8) : Prop :=
  ((fresh.feed (history ++ packetFlag :: (cut ++ [packetEsc]))).decodeNextByte
    packetFlag).hasNewPacket = false

private theorem closes_feed_cut_iff {d : SerialPacketsDecoder cfg} {history cut body : List UInt8}
    (hcut : packetFlag ∉ cut) :
    Receiver.closes hdlc (d.feed (history ++ packetFlag :: (cut ++ [packetEsc]))).receiver
        packetFlag = some body ↔
      cut = hdlc.stuff body ∧ body.length < cfg.maxPacketLen := by
  have hsplit : history ++ packetFlag :: (cut ++ [packetEsc])
      = (history ++ [packetFlag]) ++ (cut ++ [packetEsc]) := by simp
  have hlast : (history ++ [packetFlag]).getLast? = some packetFlag := List.getLast?_concat
  rw [hsplit, SerialPacketsDecoder.feed_append,
    SerialPacketsDecoder.receiver_feed_of_flag hlast (cut ++ [packetEsc])]
  exact Receiver.closes_run_concat_esc_iff (by decide) hcut

/-- **Aborted frames are rejected except where they are complete.** The flag behind an escape is
ignored unless the bytes in front of the escape are the stuffing of a well-formed body, shorter than
the longest one. -/
theorem abortRejected_iff (packetBuffer : Vector UInt8 cfg.maxPacketLen)
    (metadata : DecodedPacketMetadata) (dataMemory : Vector UInt8 cfg.maxPacketDataLen)
    (history : List UInt8) {cut : List UInt8} (hcut : packetFlag ∉ cut) :
    AbortRejected (SerialPacketsDecoder.fresh packetBuffer metadata dataMemory) history cut ↔
      ¬∃ body, cut = hdlc.stuff body ∧ WellFormed cfg body ∧ body.length < cfg.maxPacketLen := by
  rw [AbortRejected, ← Bool.not_eq_true, SerialPacketsDecoder.hasNewPacket_decodeNextByte_iff,
    not_iff_not]
  constructor
  · rintro ⟨m, payload, hcloses⟩
    obtain ⟨hstuff, hlt⟩ := (closes_feed_cut_iff hcut).mp hcloses
    exact ⟨_, hstuff, wellFormed_body (Nat.le_of_lt hlt), hlt⟩
  · rintro ⟨body, hstuff, hwf, hlt⟩
    obtain ⟨m, payload, rfl⟩ := hwf.exists_packet
    exact ⟨m, payload, (closes_feed_cut_iff hcut).mpr ⟨hstuff, hlt⟩⟩

/-- A frame cut off in the middle of its header. -/
theorem abortRejected_halfHeader :
    @AbortRejected Config.default
      (SerialPacketsDecoder.fresh (Vector.replicate _ 0) (.message 0) (Vector.replicate _ 0))
      [] [0x03] := by
  refine (abortRejected_iff _ _ _ [] (by decide)).mpr ?_
  rintro ⟨body, hstuff, hwf, -⟩
  have hle : body.length ≤ 1 := (Stuffing.length_le_length_stuff body).trans_eq
    (congrArg List.length hstuff).symm
  exact absurd (hwf.four_le.trans hle) (by decide)

/-- A whole message, then the abort sequence: the message is reported. -/
theorem not_abortRejected_message :
    ¬@AbortRejected Config.default
      (SerialPacketsDecoder.fresh (Vector.replicate _ 0) (.message 0) (Vector.replicate _ 0))
      [] (hdlc.stuff (Packet.message 0x20 [0x11, 0x22]).body) := by
  set fresh := @SerialPacketsDecoder.fresh Config.default
    (Vector.replicate _ 0) (.message 0) (Vector.replicate _ 0)
  have hshort : (Packet.message 0x20 [0x11, 0x22]).body.length < Config.default.maxPacketLen := by
    rw [Packet.length_body]
    decide
  have hcloses : Receiver.closes hdlc (fresh.feed ([] ++ packetFlag ::
      (hdlc.stuff (Packet.message 0x20 [0x11, 0x22]).body ++ [packetEsc]))).receiver packetFlag
      = some ((DecodedPacketMetadata.message 0x20).packet [0x11, 0x22]).body :=
    (closes_feed_cut_iff (Stuffing.flag_notMem_stuff _)).mpr ⟨rfl, hshort⟩
  rw [AbortRejected, (SerialPacketsDecoder.decodeNextByte_of_closes hcloses).1]
  exact Bool.false_ne_true ∘ Eq.symm

/-! ## Bytes outside a packet -/

/-- A packet is open after these bytes: the ones behind the last flag are the beginning of a frame
within the limits, so that a flag would close it. -/
def PacketOpen (cfg : Config) (bytes : List UInt8) : Prop :=
  ∃ body pending, EndsInFrame hdlc (bytes ++ [packetFlag]) body pending ∧
    body.length + (if pending then 1 else 0) ≤ cfg.maxPacketLen

/-- Wherever over this sequence the decoder waits for a flag, nothing has been collected, and the
next byte, if it is not a flag, changes nothing and is not reported as an error. -/
def IgnoresOutside (fresh : SerialPacketsDecoder cfg) (bytes : List UInt8) : Prop :=
  ∀ pre post, bytes = pre ++ post → (fresh.feed pre).inPacket = false →
    (fresh.feed pre).packetLen = 0 ∧ (fresh.feed pre).pendingEscape = false ∧
      ∀ b rest, post = b :: rest → b ≠ packetFlag →
        ((fresh.feed pre).decodeNextByte b).decoder = fresh.feed pre ∧
          ((fresh.feed pre).decodeNextByte b).report = none

private theorem inPacket_feed_fresh_iff (packetBuffer : Vector UInt8 cfg.maxPacketLen)
    (metadata : DecodedPacketMetadata) (dataMemory : Vector UInt8 cfg.maxPacketDataLen)
    (bytes : List UInt8) :
    ((SerialPacketsDecoder.fresh packetBuffer metadata dataMemory).feed bytes).inPacket = true ↔
      PacketOpen cfg bytes := by
  have hrec := SerialPacketsDecoder.receiver_feed
    (SerialPacketsDecoder.fresh packetBuffer metadata dataMemory) bytes
  rw [SerialPacketsDecoder.receiver_fresh] at hrec
  have hin : ((SerialPacketsDecoder.fresh packetBuffer metadata dataMemory).feed bytes).inPacket
      = (Receiver.run hdlc cfg.maxPacketLen Receiver.dropped bytes).inFrame := by
    rw [← hrec]
    rfl
  rw [hin]
  exact inFrame_run_dropped_iff

/-- A byte that arrives while nothing has been collected leaves a trace, unless it is a flag. -/
private theorem push_dropped_ne {b : UInt8} :
    Receiver.push hdlc cfg.maxPacketLen Receiver.dropped b ≠ Receiver.dropped := by
  have hroom : ¬cfg.maxPacketLen ≤ 0 := by
    have := cfg.eight_le_maxPacketLen
    omega
  rw [Receiver.push, Receiver.dropped]
  simp only [List.length_nil, if_neg hroom, Bool.false_eq_true, if_false]
  split <;> simp

/-- **Bytes outside a packet are ignored exactly when there are none.** -/
theorem ignoresOutside_iff (packetBuffer : Vector UInt8 cfg.maxPacketLen)
    (metadata : DecodedPacketMetadata) (dataMemory : Vector UInt8 cfg.maxPacketDataLen)
    (bytes : List UInt8) :
    IgnoresOutside (SerialPacketsDecoder.fresh packetBuffer metadata dataMemory) bytes ↔
      ∀ pre b post, bytes = pre ++ b :: post → b ≠ packetFlag → PacketOpen cfg pre := by
  set fresh := SerialPacketsDecoder.fresh packetBuffer metadata dataMemory with hfresh
  have hrec (pre : List UInt8) : (fresh.feed pre).receiver
      = Receiver.run hdlc cfg.maxPacketLen Receiver.dropped pre := by
    rw [hfresh, SerialPacketsDecoder.receiver_feed, SerialPacketsDecoder.receiver_fresh]
  have hopen (pre : List UInt8) : (fresh.feed pre).inPacket = true ↔ PacketOpen cfg pre :=
    inPacket_feed_fresh_iff packetBuffer metadata dataMemory pre
  constructor
  · intro h pre b post hbytes hb
    rw [← hopen]
    by_contra hin
    rw [Bool.not_eq_true] at hin
    obtain ⟨hlen, hpend, hnext⟩ := h pre (b :: post) hbytes hin
    obtain ⟨hsame, -⟩ := hnext b post rfl hb
    have hwaiting : (fresh.feed pre).receiver = Receiver.dropped := by
      rw [DecoderState.receiver, hin, hpend, hlen, filled_zero]
      rfl
    have hpush := ((fresh.feed pre).decodeNextByte_spec b).1
    rw [hsame, hwaiting, Receiver.next_of_ne hb] at hpush
    exact push_dropped_ne hpush.symm
  · rintro h pre post rfl hin
    -- up to here every byte outside a packet was a flag, so nothing has been collected
    have hdropped : (fresh.feed pre).receiver = Receiver.dropped := by
      rw [hrec]
      refine (run_dropped_eq_dropped_or fun pre' b post' hpre hb ↦ ?_).resolve_right ?_
      · rw [← hrec]
        exact (hopen pre').mpr (h pre' b (post' ++ post) (by rw [hpre]; simp) hb)
      · rw [← hrec, Bool.not_eq_true]
        exact hin
    have hreceiver := Receiver.ext_iff.mp hdropped
    refine ⟨?_, hreceiver.2.2, ?_⟩
    · have hlength : (filled (fresh.feed pre).packetBuffer (fresh.feed pre).packetLen).length = 0 :=
        congrArg List.length hreceiver.2.1
      rwa [length_filled (fresh.feed pre).packetLen_le] at hlength
    · rintro b rest rfl hb
      rw [(hopen pre).mpr (h pre b rest rfl hb)] at hin
      exact absurd hin.symm Bool.false_ne_true

/-- Noise without flags and escapes fills the buffer of a waiting decoder up to the limit, and the
next byte is reported as an overrun. -/
theorem report_noise (packetBuffer : Vector UInt8 cfg.maxPacketLen)
    (metadata : DecodedPacketMetadata) (dataMemory : Vector UInt8 cfg.maxPacketDataLen)
    {noise : List UInt8} {b : UInt8} (hnoise : ∀ c ∈ noise, hdlc.special c = false)
    (hlen : noise.length = cfg.maxPacketLen) (hb : b ≠ packetFlag) :
    (((SerialPacketsDecoder.fresh packetBuffer metadata dataMemory).feed noise).decodeNextByte
      b).report = some .packetOverrun := by
  set fresh := SerialPacketsDecoder.fresh packetBuffer metadata dataMemory with hfresh
  have hstuff : hdlc.stuff noise = noise := by
    have hone := List.flatMap_congr fun c hc ↦ Stuffing.stuffOne_of_not_special (hnoise c hc)
    rw [Stuffing.stuff, hone, List.flatMap_singleton']
  have hrun : (fresh.feed noise).receiver = ⟨false, noise, false⟩ := by
    rw [hfresh, SerialPacketsDecoder.receiver_feed, SerialPacketsDecoder.receiver_fresh]
    conv_lhs => rw [← hstuff]
    exact Receiver.run_stuff noise rfl (by rw [hlen]; exact (Nat.zero_add _).le)
  have hfull : (fresh.feed noise).packetLen = cfg.maxPacketLen := by
    have hlength := congrArg (fun s ↦ s.body.length) hrun
    dsimp only [DecoderState.receiver] at hlength
    rw [length_filled (fresh.feed noise).packetLen_le] at hlength
    exact hlength.trans hlen
  have hstep : (fresh.feed noise).toDecoderState.decodeNextByte? b
      = some ⟨false, some .packetOverrun, (fresh.feed noise).toDecoderState.dropped⟩ := by
    rw [DecoderState.decodeNextByte?, if_neg (fun h ↦ hb h.2), if_neg hb, if_pos hfull.ge]
  rw [SerialPacketsDecoder.decodeNextByte]
  simp [hstep]

/-- A zero byte on an idle line is collected. -/
theorem not_ignoresOutside_zero :
    ¬@IgnoresOutside Config.default
      (SerialPacketsDecoder.fresh (Vector.replicate _ 0) (.message 0) (Vector.replicate _ 0))
      [0x00] := by
  intro h
  obtain ⟨hlen, -⟩ := h [0x00] [] rfl (by decide)
  exact absurd hlen (by decide)

/-! ## Memory -/

namespace DecoderState

/-- The raw data members after a sequence of bytes, undefined as soon as an access or a length
leaves its range. -/
def feed? (d : DecoderState cfg) (bytes : List UInt8) : Option (DecoderState cfg) :=
  bytes.foldlM (fun d b ↦ (d.decodeNextByte? b).map DecodeResult.decoder) d

/-- The same return value and error report, the same receiving variables up to stale cells, and
the same packet where one is reported. -/
structure SameResult (r r' : DecodeResult (DecoderState cfg)) : Prop where
  hasNewPacket : r.hasNewPacket = r'.hasNewPacket
  report : r.report = r'.report
  receiver : r.decoder.receiver = r'.decoder.receiver
  decodedMetadata : r.hasNewPacket = true →
    r.decoder.decodedMetadata = r'.decoder.decodedMetadata
  contents : r.hasNewPacket = true →
    r.decoder.decodedData.contents = r'.decoder.decodedData.contents
  hadWriteErrors : r.hasNewPacket = true →
    r.decoder.decodedData.hadWriteErrors = r'.decoder.decodedData.hadWriteErrors

variable {d d' : DecoderState cfg}

/-- `process_packet` stays below the fill level, with the same outcome as on the filled cells
alone. -/
theorem processPacket?_filled (hlen : d.packetLen ≤ cfg.maxPacketLen) :
    ∃ o, SerialPackets.processPacket? (fun i ↦ (filled d.packetBuffer d.packetLen)[i]?)
        d.packetLen = some o ∧
      SerialPackets.processPacket? (fun i ↦ d.packetBuffer[i]?) d.packetLen = some o := by
  obtain ⟨o, ho, -⟩ := processPacket?_spec (filled d.packetBuffer d.packetLen)
  rw [length_filled hlen] at ho
  exact ⟨o, ho, processPacket?_of_extends (extends_filled _ _) ho⟩

private theorem packetLen_eq_of_receiver (hlen : d.packetLen ≤ cfg.maxPacketLen)
    (hlen' : d'.packetLen ≤ cfg.maxPacketLen) (h : d.receiver = d'.receiver) :
    d.packetLen = d'.packetLen := by
  have hbody := congrArg (fun s ↦ s.body.length) h
  dsimp only [receiver] at hbody
  rwa [length_filled hlen, length_filled hlen'] at hbody

private theorem report_decodeNextByte? (hlen : d.packetLen ≤ cfg.maxPacketLen)
    (hlen' : d'.packetLen ≤ cfg.maxPacketLen) (h : d.receiver = d'.receiver) (b : UInt8) :
    (d.decodeNextByte? b).map DecodeResult.report
      = (d'.decodeNextByte? b).map DecodeResult.report := by
  have hin : d.inPacket = d'.inPacket := congrArg Receiver.inFrame h
  have hfilled : filled d.packetBuffer d.packetLen = filled d'.packetBuffer d'.packetLen :=
    congrArg Receiver.body h
  have hpend : d.pendingEscape = d'.pendingEscape := congrArg Receiver.pending h
  have hsame := packetLen_eq_of_receiver hlen hlen' h
  rw [decodeNextByte?, decodeNextByte?, hin, hpend, hsame]
  by_cases hopen : d'.inPacket = false ∧ b = packetFlag
  · rw [if_pos hopen, if_pos hopen]
    rfl
  rw [if_neg hopen, if_neg hopen]
  by_cases hb : b = packetFlag
  · -- both check the filled cells
    obtain ⟨o, ho, hbuffer⟩ := processPacket?_filled hlen
    obtain ⟨o', ho', hbuffer'⟩ := processPacket?_filled hlen'
    rw [hfilled, hsame, ho'] at ho
    obtain rfl := Option.some_inj.mp ho
    rw [if_pos hb, if_pos hb, processPacket?, processPacket?, hbuffer, hbuffer']
    cases o' <;> rfl
  rw [if_neg hb, if_neg hb]
  -- the remaining bytes are reported without a look at the cells
  by_cases hfull : d'.packetLen ≥ cfg.maxPacketLen
  · rw [if_pos hfull, if_pos hfull]
    rfl
  rw [if_neg hfull, if_neg hfull]
  have hlt : d'.packetLen < cfg.maxPacketLen := Nat.lt_of_not_le hfull
  have happend (c : UInt8) (f : DecoderState cfg → DecoderState cfg) :
      ((d.append? c).map fun d ↦ (⟨false, none, f d⟩ : DecodeResult _)).map DecodeResult.report
        = ((d'.append? c).map fun d ↦ (⟨false, none, f d⟩ : DecodeResult _)).map
            DecodeResult.report := by
    obtain ⟨e, he, -⟩ := append?_of_lt d c (hsame ▸ hlt)
    obtain ⟨e', he', -⟩ := append?_of_lt d' c hlt
    rw [he, he']
    rfl
  split
  · dsimp only
    split
    · rfl
    · exact happend _ _
  · split
    · rfl
    · exact happend b id

private theorem writeBytes_clear_congr {N : ℕ} (b b' : SerialPacketsBuffer N) (bytes : List UInt8) :
    (b.clear.writeBytes bytes).contents = (b'.clear.writeBytes bytes).contents ∧
      (b.clear.writeBytes bytes).hadWriteErrors = (b'.clear.writeBytes bytes).hadWriteErrors := by
  by_cases hfit : 0 + bytes.length ≤ N
  · rw [SerialPacketsBuffer.contents_writeBytes rfl hfit,
      SerialPacketsBuffer.contents_writeBytes rfl hfit,
      SerialPacketsBuffer.hadWriteErrors_writeBytes rfl hfit,
      SerialPacketsBuffer.hadWriteErrors_writeBytes rfl hfit,
      SerialPacketsBuffer.contents_clear, SerialPacketsBuffer.contents_clear]
    exact ⟨rfl, rfl⟩
  · rw [SerialPacketsBuffer.writeBytes_of_not_fit (Or.inr (Nat.lt_of_not_le hfit)),
      SerialPacketsBuffer.writeBytes_of_not_fit (Or.inr (Nat.lt_of_not_le hfit))]
    exact ⟨(SerialPacketsBuffer.contents_clear b).trans
      (SerialPacketsBuffer.contents_clear b').symm, rfl⟩

private theorem delivery_congr {e e' : DecoderState cfg} {closed : Option (List UInt8)}
    {new new' : Bool} (h : Delivery d e closed new) (h' : Delivery d' e' closed new') :
    new = new' ∧ (new = true → e.decodedMetadata = e'.decodedMetadata ∧
      e.decodedData.contents = e'.decodedData.contents ∧
      e.decodedData.hadWriteErrors = e'.decodedData.hadWriteErrors) := by
  cases h with
  | nothing hnone hmeta hdata =>
    refine ⟨?_, fun h ↦ absurd h Bool.false_ne_true⟩
    cases h' with
    | nothing => rfl
    | packet hmeta' hdata' => exact absurd rfl (hnone _ rfl _ _)
  | @packet m payload hmeta hdata =>
    generalize hbody : some (m.packet payload).body = closed at h'
    cases h' with
    | nothing hnone hmeta' hdata' => exact absurd rfl (hnone _ hbody.symm m payload)
    | packet hmeta' hdata' =>
      obtain ⟨rfl, rfl⟩ := DecodedPacketMetadata.body_injective (Option.some_inj.mp hbody)
      rw [hdata, hdata', hmeta, hmeta']
      exact ⟨rfl, fun _ ↦ ⟨rfl, writeBytes_clear_congr _ _ payload⟩⟩

/-- **Stale cells do not matter.** Two decoders that agree on the cells below the fill level give
the same results on every byte. -/
theorem sameResult_decodeNextByte? (hlen : d.packetLen ≤ cfg.maxPacketLen)
    (hlen' : d'.packetLen ≤ cfg.maxPacketLen) (h : d.receiver = d'.receiver) (b : UInt8) :
    ∃ r r', d.decodeNextByte? b = some r ∧ d'.decodeNextByte? b = some r' ∧ SameResult r r' := by
  obtain ⟨r, hr, -, hrec, hdelivery⟩ := decodeNextByte?_spec b hlen
  obtain ⟨r', hr', -, hrec', hdelivery'⟩ := decodeNextByte?_spec b hlen'
  have hreport := report_decodeNextByte? hlen hlen' h b
  rw [hr, hr'] at hreport
  refine ⟨r, r', hr, hr', ?_⟩
  rw [← h] at hrec' hdelivery'
  obtain ⟨hnew, hsame⟩ := delivery_congr hdelivery hdelivery'
  exact ⟨hnew, Option.some_inj.mp hreport, hrec.trans hrec'.symm, fun h ↦ (hsame h).1,
    fun h ↦ (hsame h).2.1, fun h ↦ (hsame h).2.2⟩

private theorem feed?_toDecoderState (d : SerialPacketsDecoder cfg) (bytes : List UInt8) :
    d.toDecoderState.feed? bytes = some (d.feed bytes).toDecoderState := by
  induction bytes generalizing d with
  | nil => rfl
  | cons b bytes ih =>
    obtain ⟨r, hr, -⟩ := decodeNextByte?_spec b d.packetLen_le
    have hnext : (d.decodeNextByte b).decoder.toDecoderState = r.decoder := by
      rw [SerialPacketsDecoder.decodeNextByte]
      simp [hr]
    rw [feed?, List.foldlM_cons, hr, Option.map_some, SerialPacketsDecoder.feed_cons, ← ih, hnext]
    rfl

end DecoderState

/-- **Accesses are in range and never stale.** Over every byte sequence the fill level stays within
the array, and below its end while an escape is pending; no store, load or difference of lengths of
`decode_next_byte` leaves its range, and those of `process_packet` stay below the fill level. No
cell above it has any influence on what a byte brings about. -/
theorem feed?_fresh_inRange (packetBuffer : Vector UInt8 cfg.maxPacketLen)
    (metadata : DecodedPacketMetadata) (dataMemory : Vector UInt8 cfg.maxPacketDataLen)
    (bytes : List UInt8) :
    ∃ d, (SerialPacketsDecoder.fresh packetBuffer metadata dataMemory).toDecoderState.feed? bytes
        = some d ∧
      d.packetLen ≤ cfg.maxPacketLen ∧
      (d.pendingEscape = true → d.packetLen < cfg.maxPacketLen) ∧
      (∀ b, (d.decodeNextByte? b).isSome = true) ∧
      (∃ o, processPacket? (fun i ↦ (filled d.packetBuffer d.packetLen)[i]?) d.packetLen = some o ∧
        processPacket? (fun i ↦ d.packetBuffer[i]?) d.packetLen = some o) ∧
      ∀ d' : DecoderState cfg, d'.packetLen ≤ cfg.maxPacketLen → d.receiver = d'.receiver →
        ∀ b, ∃ r r', d.decodeNextByte? b = some r ∧ d'.decodeNextByte? b = some r' ∧
          DecoderState.SameResult r r' := by
  set fresh := SerialPacketsDecoder.fresh packetBuffer metadata dataMemory with hfresh
  have hlen := (fresh.feed bytes).packetLen_le
  refine ⟨(fresh.feed bytes).toDecoderState, DecoderState.feed?_toDecoderState fresh bytes, hlen,
    ?_, (fresh.feed bytes).decodeNextByte?_isSome, DecoderState.processPacket?_filled hlen,
    fun d' hlen' h b ↦ DecoderState.sameResult_decodeNextByte? hlen hlen' h b⟩
  intro hpend
  have hrec : (fresh.feed bytes).receiver
      = Receiver.run hdlc cfg.maxPacketLen Receiver.dropped bytes := by
    rw [hfresh, SerialPacketsDecoder.receiver_feed, SerialPacketsDecoder.receiver_fresh]
  have hlt : (fresh.feed bytes).receiver.body.length < cfg.maxPacketLen := by
    rw [hrec]
    exact Receiver.length_lt_of_pending_run (by rw [← hrec]; exact hpend)
  rwa [DecoderState.receiver, length_filled hlen] at hlt

end SerialPackets

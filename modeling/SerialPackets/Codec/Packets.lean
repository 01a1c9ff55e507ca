import SerialPackets.Codec.Grammar
import SerialPackets.Codec.RoundTrip
import SerialPackets.Lib.FrameStreams

/-!
# The packets of a byte sequence

What the decoder reports over a byte sequence is a matter of the frames that the sequence closes:
each frame is the body of one packet or of none (`packetOf`), and the packets reported are those of
the frames, in order (`filterMap_reports`).

The wire format is canonical in both directions. A packet that was reported is encoded again as the
very bytes it was decoded from (`encodePacket_reported`), so that it can be passed on unchanged; and
no two sequences of packets have the same bytes (`wires_injective`).
-/

namespace SerialPackets

open Framing

variable {cfg : Config}

/-! ## Packets and frames -/

/-- The packet that is shown for a frame with this body, if it is one. A payload that is too long
for a `SerialPacketsData` is lost. -/
def packetOf (cfg : Config) (body : List UInt8) : Option (Packet (List UInt8)) :=
  match processPacket? (fun i ↦ body[i]?) body.length with
  | some (.packet m payload) =>
    some (m.packet (if payload.length ≤ cfg.maxPacketDataLen then payload else []))
  | _ => none

/-- The packets of the frames that a byte sequence closes. -/
def decodedPackets (cfg : Config) (s : Receiver UInt8) (bytes : List UInt8) :
    List (Packet (List UInt8)) :=
  (Receiver.frames hdlc cfg.maxPacketLen s bytes).filterMap (packetOf cfg)

theorem packetOf_eq_some_iff {body : List UInt8} {p : Packet (List UInt8)} :
    packetOf cfg body = some p ↔ ∃ (m : DecodedPacketMetadata) (payload : List UInt8),
      body = (m.packet payload).body ∧
        p = m.packet (if payload.length ≤ cfg.maxPacketDataLen then payload else []) := by
  obtain ⟨o, ho, hspec⟩ := processPacket?_spec body
  rw [packetOf, ho]
  cases o with
  | packet m payload =>
    have hbody := (hspec m payload).mp rfl
    constructor
    · intro h
      exact ⟨m, payload, hbody, (Option.some_inj.mp h).symm⟩
    · rintro ⟨m', payload', hbody', rfl⟩
      obtain ⟨rfl, rfl⟩ := DecodedPacketMetadata.body_injective (hbody.symm.trans hbody')
      rfl
  | _ =>
    refine iff_of_false (Option.some_ne_none p).symm ?_
    rintro ⟨m, payload, hbody, -⟩
    exact absurd ((hspec m payload).mpr hbody) ProcessOutcome.noConfusion

theorem body_eq_body_iff {p q : Packet (List UInt8)} : p.body = q.body ↔ p = q := by
  refine ⟨fun h ↦ ?_, congrArg Packet.body⟩
  obtain ⟨m, payload, rfl⟩ := p.exists_metadata
  obtain ⟨m', payload', rfl⟩ := q.exists_metadata
  obtain ⟨rfl, rfl⟩ := DecodedPacketMetadata.body_injective h
  rfl

theorem packetOf_eq_none_iff {body : List UInt8} :
    packetOf cfg body = none ↔ ∀ p : Packet (List UInt8), body ≠ p.body := by
  rw [Option.eq_none_iff_forall_ne_some]
  constructor
  · rintro h p rfl
    obtain ⟨m, payload, rfl⟩ := p.exists_metadata
    exact h _ (packetOf_eq_some_iff.mpr ⟨m, payload, rfl, rfl⟩)
  · intro h p hp
    obtain ⟨m, payload, hbody, -⟩ := packetOf_eq_some_iff.mp hp
    exact h _ hbody

theorem packetOf_body {p : Packet (List UInt8)} (hdata : p.data.length ≤ cfg.maxPacketDataLen) :
    packetOf cfg p.body = some p := by
  obtain ⟨m, payload, rfl⟩ := p.exists_metadata
  rw [DecodedPacketMetadata.data_packet] at hdata
  exact packetOf_eq_some_iff.mpr ⟨m, payload, rfl, by rw [if_pos hdata]⟩

@[simp] theorem packetOf_nil : packetOf cfg [] = none :=
  packetOf_eq_none_iff.mpr fun p h ↦ p.body_ne_nil h.symm

theorem packetOf_comp_body {ps : List (Packet (List UInt8))}
    (hdata : ∀ p ∈ ps, p.data.length ≤ cfg.maxPacketDataLen) :
    (ps.map Packet.body).filterMap (packetOf cfg) = ps := by
  induction ps with
  | nil => rfl
  | cons p ps ih =>
    rw [List.map_cons, List.filterMap_cons_some (packetOf_body (hdata p List.mem_cons_self)),
      ih fun q hq ↦ hdata q (List.mem_cons_of_mem p hq)]

theorem decodedPackets_append (s : Receiver UInt8) (as bs : List UInt8) :
    decodedPackets cfg s (as ++ bs) = decodedPackets cfg s as
      ++ decodedPackets cfg (Receiver.run hdlc cfg.maxPacketLen s as) bs := by
  rw [decodedPackets, Receiver.frames_append, List.filterMap_append]
  rfl

theorem decodedPackets_singleton (s : Receiver UInt8) (b : UInt8) :
    decodedPackets cfg s [b] = ((Receiver.closes hdlc s b).bind (packetOf cfg)).toList := by
  rw [decodedPackets, Receiver.frames_cons, Receiver.frames_nil, List.append_nil]
  cases Receiver.closes hdlc s b with
  | none => rfl
  | some body =>
    rw [Option.bind_some]
    cases hpacket : packetOf cfg body <;> simp [hpacket]

theorem decodedPackets_of_flag_free {s : Receiver UInt8} {bytes : List UInt8}
    (h : packetFlag ∉ bytes) : decodedPackets cfg s bytes = [] := by
  rw [decodedPackets, Receiver.frames_of_flag_free h, List.filterMap_nil]

theorem filterMap_filter_ne_nil (bodies : List (List UInt8)) :
    (bodies.filter (· ≠ [])).filterMap (packetOf cfg) = bodies.filterMap (packetOf cfg) := by
  induction bodies with
  | nil => rfl
  | cons body bodies ih =>
    by_cases hbody : body = []
    · rw [List.filter_cons_of_neg (by simpa using hbody), ih, hbody,
        List.filterMap_cons_none packetOf_nil]
    · rw [List.filter_cons_of_pos (by simpa using hbody), List.filterMap_cons, List.filterMap_cons,
        ih]

/-! ## What is reported -/

theorem SerialPacketsDecoder.reportAt_eq (d : SerialPacketsDecoder cfg) (b : UInt8) :
    d.reportAt b = (Receiver.closes hdlc d.receiver b).bind (packetOf cfg) := by
  cases hclosed : Receiver.closes hdlc d.receiver b with
  | none => exact reportAt_of_closes_none hclosed
  | some body =>
    rw [Option.bind_some]
    cases hpacket : packetOf cfg body with
    | none =>
      refine if_neg fun hnew ↦ ?_
      obtain ⟨m, payload, hbody⟩ := (d.hasNewPacket_decodeNextByte_iff b).mp hnew
      rw [hclosed, Option.some_inj] at hbody
      exact packetOf_eq_none_iff.mp hpacket _ hbody
    | some p =>
      obtain ⟨m, payload, rfl, rfl⟩ := packetOf_eq_some_iff.mp hpacket
      obtain ⟨hnew, hmeta, hdata⟩ := decodeNextByte_of_closes hclosed
      rw [reportAt, if_pos hnew, packet, hmeta, hdata]
      congr 2
      by_cases hfit : payload.length ≤ cfg.maxPacketDataLen
      · rw [if_pos hfit, SerialPacketsBuffer.contents_writeBytes rfl
          (by rw [SerialPacketsBuffer.size_clear, Nat.zero_add]; exact hfit),
          SerialPacketsBuffer.contents_clear, List.nil_append]
      · have hlong : cfg.maxPacketDataLen < d.decodedData.clear.size + payload.length := by
          rw [SerialPacketsBuffer.size_clear, Nat.zero_add]
          exact Nat.lt_of_not_le hfit
        rw [if_neg hfit, SerialPacketsBuffer.writeBytes_of_not_fit (Or.inr hlong),
          SerialPacketsBuffer.contents_setWriteErrors, SerialPacketsBuffer.contents_clear]

/-- **What is reported over a byte sequence** are the packets of the frames that it closes. -/
theorem SerialPacketsDecoder.filterMap_reports (d : SerialPacketsDecoder cfg)
    (bytes : List UInt8) :
    (d.reports bytes).filterMap id = decodedPackets cfg d.receiver bytes := by
  induction bytes generalizing d with
  | nil => rfl
  | cons b bytes ih =>
    rw [reports, List.filterMap_cons, ih, (d.decodeNextByte_spec b).1, ← List.singleton_append,
      decodedPackets_append, decodedPackets_singleton, reportAt_eq]
    cases (Receiver.closes hdlc d.receiver b).bind (packetOf cfg) <;> rfl

/-! ## Streams of packets -/

/-- Packets on the wire, one after another, each with or without a flag of its own in front. -/
def wires (packets : List (Bool × Packet (List UInt8))) : List UInt8 :=
  packets.flatMap fun q ↦ Packet.wire q.1 q.2

/-- A receiver that will see every packet: it has just seen a flag, or it is outside a frame and the
first packet has a flag of its own. -/
def ReadyFor (s : Receiver UInt8) (packets : List (Bool × Packet (List UInt8))) : Prop :=
  s = .opened ∨ s.inFrame = false ∧ ∀ q ∈ packets.head?, q.1 = true

private theorem wires_eq_frames (packets : List (Bool × Packet (List UInt8))) :
    wires packets
      = (packets.map fun q ↦ (q.1, q.2.body)).flatMap fun q ↦ hdlc.frame q.1 q.2 := by
  rw [List.flatMap_map]
  rfl

theorem run_wires (packets : List (Bool × Packet (List UInt8))) :
    Receiver.run hdlc cfg.maxPacketLen .opened (wires packets) = .opened := by
  rw [wires_eq_frames, Receiver.run_stream]

/-- **No packet is lost** where the bytes are those of packets and the receiver is ready. -/
theorem decodedPackets_wires {s : Receiver UInt8} {packets : List (Bool × Packet (List UInt8))}
    (hready : ReadyFor s packets)
    (hdata : ∀ q ∈ packets, q.2.data.length ≤ cfg.maxPacketDataLen) :
    decodedPackets cfg s (wires packets) = packets.map Prod.snd := by
  have hframes := @Receiver.filter_frames_stream _ _ hdlc cfg.maxPacketLen s
    (packets.map fun q ↦ (q.1, q.2.body)) ?_ ?_ ?_
  · rw [decodedPackets, ← filterMap_filter_ne_nil, wires_eq_frames, hframes, List.map_map]
    have hbodies := @packetOf_comp_body cfg (packets.map Prod.snd) fun p hp ↦ by
      obtain ⟨q, hq, rfl⟩ := List.mem_map.mp hp
      exact hdata q hq
    rwa [List.map_map] at hbodies
  · refine hready.imp_right fun ⟨hs, hflag⟩ ↦ ⟨hs, fun q hq ↦ ?_⟩
    rw [List.head?_map] at hq
    obtain ⟨r, hr, rfl⟩ := Option.mem_map.mp hq
    exact hflag r hr
  · intro q hq
    obtain ⟨q, hq', rfl⟩ := List.mem_map.mp hq
    exact Packet.length_body_le (hdata q hq')
  · intro q hq
    obtain ⟨q, hq', rfl⟩ := List.mem_map.mp hq
    exact q.2.body_ne_nil

/-- **The bytes determine the packets**, and which of them have a flag of their own in front. -/
theorem wires_injective : Function.Injective wires := by
  intro ps qs h
  rw [wires_eq_frames, wires_eq_frames] at h
  have hne (packets : List (Bool × Packet (List UInt8))) :
      ∀ q ∈ packets.map fun q ↦ (q.1, q.2.body), q.2 ≠ [] := by
    intro q hq
    obtain ⟨q, -, rfl⟩ := List.mem_map.mp hq
    exact q.2.body_ne_nil
  have hbody : Function.Injective fun q : Bool × Packet (List UInt8) ↦ (q.1, q.2.body) := by
    rintro ⟨preFlag, p⟩ ⟨preFlag', p'⟩ heq
    obtain ⟨hflag, hp⟩ := Prod.mk.inj heq
    exact Prod.ext hflag (body_eq_body_iff.mp hp)
  exact List.map_injective_iff.mpr hbody (Stuffing.stream_injective (hne ps) (hne qs) h)

/-- **Encoded streams are read in one way only.** Two sequences of packets, encoded by any encoders,
have the same bytes only if they are the same packets with the same flags. -/
theorem payloads_eq_of_encodeAll {e e' : SerialPacketsEncoder cfg}
    {out out' : StuffedPacketBuffer cfg} {ps qs : List (Bool × Packet (SerialPacketsData cfg))}
    {stream : List UInt8} (hps : e.encodeAll out ps = some stream)
    (hqs : e'.encodeAll out' qs = some stream) : payloads ps = payloads qs := by
  obtain ⟨-, hstream⟩ := SerialPacketsEncoder.encodeAll_eq_some_iff.mp hps
  obtain ⟨-, hstream'⟩ := SerialPacketsEncoder.encodeAll_eq_some_iff.mp hqs
  exact wires_injective (hstream.symm.trans hstream')

/-- The same message, written in one piece and byte by byte, over different memories. -/
theorem payloads_eq_of_encodeAll_message :
    let data : SerialPacketsData Config.default :=
      (SerialPacketsBuffer.fresh (Vector.replicate _ 0)).writeUint16 0x7E7D
    let data' : SerialPacketsData Config.default :=
      ((SerialPacketsBuffer.fresh (Vector.replicate _ 1)).writeUint8 0x7E).writeUint8 0x7D
    payloads [(true, .message 9 data)] = payloads [(true, .message 9 data')] := by
  intro data data'
  let e : SerialPacketsEncoder Config.default := ⟨.fresh (Vector.replicate _ 0)⟩
  have hpayload : payloads [(true, .message 9 data)] = [(true, .message 9 [0x7E, 0x7D])] := by
    decide +kernel
  have hpayload' : payloads [(true, .message 9 data')] = [(true, .message 9 [0x7E, 0x7D])] := by
    decide +kernel
  have hfits : ∀ q ∈ ([(true, .message 9 [0x7E, 0x7D])] : List (Bool × Packet _)),
      (Packet.wire q.1 q.2).length < Config.default.stuffedCapacity := by decide +kernel
  exact payloads_eq_of_encodeAll
    ((@SerialPacketsEncoder.encodeAll_eq_some_iff _ e (.fresh (Vector.replicate _ 0)) _ _).mpr
      ⟨hpayload ▸ hfits, rfl⟩)
    ((@SerialPacketsEncoder.encodeAll_eq_some_iff _ e (.fresh (Vector.replicate _ 0)) _ _).mpr
      ⟨hpayload' ▸ hfits, by rw [hpayload, hpayload']⟩)

/-! ## Passing packets on -/

private theorem SerialPacketsBuffer.contents_clear_writeBytes {N : ℕ} {b : SerialPacketsBuffer N}
    {bytes : List UInt8} (h : (b.clear.writeBytes bytes).hadWriteErrors = false) :
    (b.clear.writeBytes bytes).contents = bytes := by
  by_cases hfit : b.clear.size + bytes.length ≤ N
  · rw [contents_writeBytes rfl hfit, contents_clear, List.nil_append]
  · rw [writeBytes_of_not_fit (Or.inr (Nat.lt_of_not_le hfit))] at h
    exact absurd h Bool.true_eq_false.mp

/-- **What was received is sent as it was.** After any history that ends in a flag, let the flag
that closes a segment report a packet without a write error, the segment not ending in an escape.
An encoder that is handed the decoder's own metadata and data then makes exactly that segment of
them, between its flags; and it succeeds exactly if flags and segment together are strictly shorter
than the capacity of the output, whose last cell the encoder does not use. -/
theorem encodePacket_reported (packetBuffer : Vector UInt8 cfg.maxPacketLen)
    (metadata : DecodedPacketMetadata) (dataMemory : Vector UInt8 cfg.maxPacketDataLen)
    {history segment : List UInt8} (hhist : history.getLast? = some packetFlag)
    (hseg : packetFlag ∉ segment) (hesc : segment.getLast? ≠ some packetEsc) :
    let d := ((SerialPacketsDecoder.fresh packetBuffer metadata dataMemory).feed history).feed
      segment
    let r := d.decodeNextByte packetFlag
    r.hasNewPacket = true → r.decoder.decodedData.hadWriteErrors = false →
      ∀ (e : SerialPacketsEncoder cfg) (preFlag : Bool) (out : StuffedPacketBuffer cfg),
        let sent := e.encodePacket (r.decoder.decodedMetadata.packet r.decoder.decodedData) preFlag
          out
        (sent.ok = true ↔
          (if preFlag then 1 else 0) + segment.length + 1 < cfg.stuffedCapacity) ∧
        (sent.ok = true → sent.out.contents
          = (if preFlag then [packetFlag] else []) ++ segment ++ [packetFlag]) := by
  intro d r hnew herr e preFlag out sent
  have hrec : d.receiver = Receiver.run hdlc cfg.maxPacketLen Receiver.opened segment :=
    SerialPacketsDecoder.receiver_feed_of_flag hhist segment
  obtain ⟨m, payload, hclosed⟩ := (d.hasNewPacket_decodeNextByte_iff packetFlag).mp hnew
  obtain ⟨-, hmeta, hdata⟩ := SerialPacketsDecoder.decodeNextByte_of_closes hclosed
  obtain ⟨hsegment, -⟩ := (Receiver.closes_run_iff_stuff hseg hesc).mp (hrec ▸ hclosed)
  -- without a write error the data buffer holds the whole payload
  have hpacket : (r.decoder.decodedMetadata.packet r.decoder.decodedData).map
      SerialPacketsBuffer.contents = m.packet payload := by
    have hcontents : r.decoder.decodedData.contents = payload := by
      rw [hdata] at herr ⊢
      exact SerialPacketsBuffer.contents_clear_writeBytes herr
    rw [hmeta, ← hcontents]
    cases m <;> rfl
  have hwire : Packet.wire preFlag (m.packet payload)
      = (if preFlag then [packetFlag] else []) ++ segment ++ [packetFlag] := by
    rw [Packet.wire, hsegment]
  refine ⟨?_, fun hok ↦ ?_⟩
  · rw [SerialPacketsEncoder.encodePacket_ok_iff, hpacket, hwire]
    cases preFlag <;> simp [Nat.add_comm]
  · rw [SerialPacketsEncoder.contents_encodePacket, if_pos hok, hpacket, hwire]

/-- A message whose payload is a flag. -/
theorem encodePacket_reported_message :
    let segment := hdlc.stuff (Packet.message 0x20 [packetFlag]).body
    let fresh : SerialPacketsDecoder Config.default :=
      .fresh (Vector.replicate _ 0) (.message 0) (Vector.replicate _ 0)
    let r := ((fresh.feed [packetFlag]).feed segment).decodeNextByte packetFlag
    let e : SerialPacketsEncoder Config.default := ⟨.fresh (Vector.replicate _ 0)⟩
    (e.encodePacket (r.decoder.decodedMetadata.packet r.decoder.decodedData) true
      (.fresh (Vector.replicate _ 0))).out.contents = packetFlag :: segment ++ [packetFlag] := by
  have hsent := @encodePacket_reported Config.default (Vector.replicate _ 0) (.message 0)
    (Vector.replicate _ 0) [packetFlag] (hdlc.stuff (Packet.message 0x20 [packetFlag]).body) rfl
    (Stuffing.flag_notMem_stuff _) (by decide +kernel) (by decide +kernel) (by decide +kernel)
    ⟨.fresh (Vector.replicate _ 0)⟩ true (.fresh (Vector.replicate _ 0))
  dsimp only at hsent ⊢
  rw [hsent.2 (hsent.1.mpr (by decide +kernel)), if_pos rfl]
  rfl

end SerialPackets

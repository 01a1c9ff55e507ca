import SerialPackets.Codec.ByteQueue
import SerialPackets.Codec.RoundTrip

/-!
# Buffers over different memory

Encoding writes to two buffers whose cells hold anything at first. Over other memory it succeeds for
the same packets, logs the same errors and leaves the same contents (`encodePacket_alike`): byte
stuffing runs through the same positions, whatever it writes over. Reading and writing a buffer
depend on its queue only.
-/

namespace SerialPackets

open Framing FixedArray

variable {cfg : Config}

/-! ## Encoding -/

section Phases

variable {N : ℕ} {c c' : OutCursor N}

/-- Where a phase of byte stuffing ends, whatever the cells hold. -/
def StuffOutcome.position : StuffOutcome N → Option ℕ × ℕ
  | .done c => (none, c.j)
  | .full check c => (some check, c.j)

private theorem OutCursor.bind_put?_congr (h : c.j = c'.j) (b : UInt8)
    {f f' : OutCursor N → Option (StuffOutcome N)}
    (hf : ∀ e e' : OutCursor N, e.j = e'.j →
      (f e).map StuffOutcome.position = (f' e').map StuffOutcome.position) :
    ((c.put? b).bind f).map StuffOutcome.position
      = ((c'.put? b).bind f').map StuffOutcome.position := by
  by_cases hlt : c.j < N
  · obtain ⟨e, he, hj, -⟩ := put?_of_lt b hlt
    obtain ⟨e', he', hj', -⟩ := put?_of_lt b (h ▸ hlt)
    rw [he, he']
    exact hf e e' (by rw [hj, hj', h])
  · have hnone (c : OutCursor N) (hc : ¬c.j < N) : c.put? b = none := by
      rw [put?, store?, dif_neg hc]
      rfl
    rw [hnone c hlt, hnone c' (h ▸ hlt)]
    rfl

private theorem OutCursor.map_put?_congr (h : c.j = c'.j) (b : UInt8) :
    ((c.put? b).map StuffOutcome.done).map StuffOutcome.position
      = ((c'.put? b).map StuffOutcome.done).map StuffOutcome.position := by
  have hbind (o : Option (OutCursor N)) : o.map StuffOutcome.done = o.bind fun c ↦ some (.done c) :=
    Option.map_eq_bind
  rw [hbind, hbind]
  exact bind_put?_congr h b fun e e' he ↦ congrArg (fun j ↦ some (none, j)) he

private theorem putPreFlag?_congr (h : c.j = c'.j) (insertPreFlag : Bool) :
    (putPreFlag? c insertPreFlag).map StuffOutcome.position
      = (putPreFlag? c' insertPreFlag).map StuffOutcome.position := by
  rw [putPreFlag?, putPreFlag?, h]
  split
  · split
    · exact congrArg (fun j ↦ some (some 1, j)) h
    · exact OutCursor.map_put?_congr h packetFlag
  · exact congrArg (fun j ↦ some (none, j)) h

private theorem putStuffed?_congr (h : c.j = c'.j) (bs : List UInt8) :
    (putStuffed? c bs).map StuffOutcome.position
      = (putStuffed? c' bs).map StuffOutcome.position := by
  induction bs generalizing c c' with
  | nil => exact congrArg (fun j ↦ some (none, j)) h
  | cons b bs ih =>
    rw [putStuffed?, putStuffed?, h]
    split
    · split
      · exact congrArg (fun j ↦ some (some 2, j)) h
      · exact c.bind_put?_congr h packetEsc fun e e' he ↦
          e.bind_put?_congr he (b ^^^ 0x20) fun _ _ he ↦ ih he
    · split
      · exact congrArg (fun j ↦ some (some 3, j)) h
      · exact c.bind_put?_congr h b fun _ _ he ↦ ih he

private theorem putPostFlag?_congr (h : c.j = c'.j) :
    (putPostFlag? c).map StuffOutcome.position = (putPostFlag? c').map StuffOutcome.position := by
  rw [putPostFlag?, putPostFlag?, h]
  split
  · exact congrArg (fun j ↦ some (some 4, j)) h
  · exact OutCursor.map_put?_congr h packetFlag

private theorem StuffOutcome.andThen_congr {o o' : StuffOutcome N} (h : o.position = o'.position)
    {f f' : OutCursor N → Option (StuffOutcome N)}
    (hf : ∀ e e' : OutCursor N, e.j = e'.j →
      (f e).map position = (f' e').map position) :
    (o.andThen f).map position = (o'.andThen f').map position := by
  rcases o with c | ⟨check, c⟩ <;> rcases o' with c' | ⟨check', c'⟩
  · exact hf c c' (Prod.mk.inj h).2
  · exact absurd (Prod.mk.inj h).1 (Option.some_ne_none _).symm
  · exact absurd (Prod.mk.inj h).1 (Option.some_ne_none _)
  · exact congrArg some h

end Phases

private theorem report_byteStuffing_congr {inp inp' : EncodedPacketBuffer cfg}
    (h : inp.contents = inp'.contents) (insertPreFlag : Bool) (out out' : StuffedPacketBuffer cfg) :
    (byteStuffing inp insertPreFlag out).report
      = (byteStuffing inp' insertPreFlag out').report := by
  have heq := byteStuffing?_eq inp insertPreFlag out
  have heq' := byteStuffing?_eq inp' insertPreFlag out'
  simp only [byteStuffing?, Option.bind_eq_some_iff] at heq heq'
  obtain ⟨o₁, h₁, o₂, h₂, o₃, h₃, heq⟩ := heq
  obtain ⟨o₁', h₁', o₂', h₂', o₃', h₃', heq'⟩ := heq'
  have hposition {o o' : StuffOutcome cfg.stuffedCapacity}
      {a a' : Option (StuffOutcome cfg.stuffedCapacity)} (ha : a = some o) (ha' : a' = some o')
      (h : a.map StuffOutcome.position = a'.map StuffOutcome.position) :
      o.position = o'.position := by
    rw [ha, ha'] at h
    exact Option.some_inj.mp h
  have hp₁ := hposition h₁ h₁'
    (@putPreFlag?_congr _ ⟨out.clear.buffer, 0⟩ ⟨out'.clear.buffer, 0⟩ rfl insertPreFlag)
  have hp₂ := hposition h₂ h₂' (StuffOutcome.andThen_congr hp₁ fun e e' he ↦ by
    rw [h]
    exact putStuffed?_congr he inp'.contents)
  have hp₃ := hposition h₃ h₃' (StuffOutcome.andThen_congr hp₂ fun e e' he ↦ putPostFlag?_congr he)
  rcases o₃ with c | ⟨check, c⟩ <;> rcases o₃' with c' | ⟨check', c'⟩
  · dsimp only at heq heq'
    split at heq
    · split at heq'
      · rw [← Option.some_inj.mp heq, ← Option.some_inj.mp heq']
      · exact absurd heq' (Option.some_ne_none _).symm
    · exact absurd heq (Option.some_ne_none _).symm
  · exact absurd (Prod.mk.inj hp₃).1 (Option.some_ne_none _).symm
  · exact absurd (Prod.mk.inj hp₃).1 (Option.some_ne_none _)
  · obtain rfl := Option.some_inj.mp (Prod.mk.inj hp₃).1
    rw [← Option.some_inj.mp heq, ← Option.some_inj.mp heq']

/-- Two results of encoding that differ in memory at most. -/
structure EncodeResult.Alike (r r' : EncodeResult cfg) : Prop where
  ok : r.ok = r'.ok
  report : r.report = r'.report
  contents : r.out.contents = r'.out.contents

/-- **Encoding does not look at the memory it writes to.** -/
theorem encodePacket_alike (e e' : SerialPacketsEncoder cfg) (out out' : StuffedPacketBuffer cfg)
    {p p' : Packet (SerialPacketsData cfg)}
    (h : p.map SerialPacketsBuffer.contents = p'.map SerialPacketsBuffer.contents)
    (insertPreFlag : Bool) : (e.encodePacket p insertPreFlag out).Alike
      (e'.encodePacket p' insertPreFlag out') := by
  have hok : (e.encodePacket p insertPreFlag out).ok
      = (e'.encodePacket p' insertPreFlag out').ok := by
    rw [Bool.eq_iff_iff, e.encodePacket_ok_iff, e'.encodePacket_ok_iff, h]
  refine ⟨hok, ?_, ?_⟩
  · obtain ⟨tmpData, hholds, heq⟩ := e.encodePacket_eq p insertPreFlag out
    obtain ⟨tmpData', hholds', heq'⟩ := e'.encodePacket_eq p' insertPreFlag out'
    rw [heq, heq']
    exact report_byteStuffing_congr (hholds.contents.trans (h ▸ hholds'.contents.symm)) _ _ _
  · rw [e.contents_encodePacket, e'.contents_encodePacket, hok, h]

/-! ## Buffers -/

namespace SerialPacketsBuffer

variable {N : ℕ} {b b' : SerialPacketsBuffer N}

private theorem queue_apply_congr (h : b.queue = b'.queue) (op : Op) :
    (b.apply op).queue = (b'.apply op).queue := by
  rw [queue_apply, queue_apply, h]

theorem queue_applyRead_congr (h : b.queue = b'.queue) (op : ReadOp) :
    (b.applyRead op).queue = (b'.applyRead op).queue := by
  cases op with
  | readUint8 => exact queue_apply_congr h (.read .uint8)
  | readUint16 => exact queue_apply_congr h (.read .uint16)
  | readUint32 => exact queue_apply_congr h (.read .uint32)
  | readBytes count => exact queue_apply_congr h (.read (.bytes count))
  | skipBytes count => exact queue_apply_congr h (.skipBytes count)
  | resetReading => exact queue_apply_congr h .resetReading

theorem queue_applyWrite_congr (h : b.queue = b'.queue) (op : WriteOp) :
    (b.applyWrite op).queue = (b'.applyWrite op).queue := by
  cases op with
  | writeUint8 v => exact queue_apply_congr h (.write (.uint8 v))
  | writeUint16 v => exact queue_apply_congr h (.write (.uint16 v))
  | writeUint32 v => exact queue_apply_congr h (.write (.uint32 v))
  | writeBytes bytes => exact queue_apply_congr h (.write (.bytes bytes))
  | clear => exact queue_apply_congr h .clear

theorem queue_clear (b b' : SerialPacketsBuffer N) : b.clear.queue = b'.clear.queue := by
  rw [queue, queue, contents_clear, contents_clear]
  rfl

end SerialPacketsBuffer

end SerialPackets

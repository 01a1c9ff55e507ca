import SerialPackets.Model.Logger
import SerialPackets.Model.Packet

/-!
# The encoder

`SerialPacketsEncoder`: a packet is laid out in a scratch buffer, its CRC appended, and the result
byte-stuffed into the caller's buffer between an optional pre flag and a post flag.

Byte stuffing writes through an index into the output array and publishes the length only at the
end, so it is written here with checked stores: `byteStuffing?` is `none` exactly when some store
falls outside the array. That this never happens is `byteStuffing?_isSome`, which is what
makes the total function `byteStuffing` out of it.
-/

namespace SerialPackets

open FixedArray

/-! ## Byte stuffing -/

/-- The output array with the write index `j`. -/
structure OutCursor (N : ℕ) where
  buffer : Vector UInt8 N
  j : ℕ

namespace OutCursor

variable {N : ℕ}

/-- `out->_buffer[j++] = b`. -/
def put? (c : OutCursor N) (b : UInt8) : Option (OutCursor N) :=
  (store? c.buffer c.j b).map fun m ↦ ⟨m, c.j + 1⟩

/-- The bytes written so far. -/
def written (c : OutCursor N) : List UInt8 := filled c.buffer c.j

theorem put?_of_lt {c : OutCursor N} (b : UInt8) (h : c.j < N) :
    ∃ c', c.put? b = some c' ∧ c'.j = c.j + 1 ∧ c'.written = c.written ++ [b] :=
  ⟨⟨c.buffer.set c.j b h, c.j + 1⟩, by rw [put?, store?_of_lt _ b h]; rfl, rfl, filled_set b h⟩

end OutCursor

/-- How a phase of byte stuffing ends: at a new position, or in the capacity check of that number.
Either way the array may have been written to. -/
inductive StuffOutcome (N : ℕ)
  | done (c : OutCursor N)
  | full (check : ℕ) (c : OutCursor N)

/-- The optional pre flag. -/
def putPreFlag? {N : ℕ} (c : OutCursor N) (insertPreFlag : Bool) : Option (StuffOutcome N) :=
  if insertPreFlag then
    if c.j + 1 ≥ N then some (.full 1 c) else (c.put? packetFlag).map .done
  else some (.done c)

/-- The loop over the packet bytes. -/
def putStuffed? {N : ℕ} (c : OutCursor N) : List UInt8 → Option (StuffOutcome N)
  | [] => some (.done c)
  | b :: bs =>
    if b = packetFlag ∨ b = packetEsc then
      if c.j + 2 ≥ N then some (.full 2 c)
      else
        (c.put? packetEsc).bind fun c₁ ↦ (c₁.put? (b ^^^ 0x20)).bind fun c₂ ↦ putStuffed? c₂ bs
    else
      if c.j + 1 ≥ N then some (.full 3 c) else (c.put? b).bind fun c₁ ↦ putStuffed? c₁ bs

/-- The post flag. -/
def putPostFlag? {N : ℕ} (c : OutCursor N) : Option (StuffOutcome N) :=
  if c.j + 1 ≥ N then some (.full 4 c) else (c.put? packetFlag).map .done

/-- A phase runs only if the one before it came to its end. -/
def StuffOutcome.andThen {N : ℕ} (o : StuffOutcome N)
    (next : OutCursor N → Option (StuffOutcome N)) : Option (StuffOutcome N) :=
  match o with
  | .done c => next c
  | .full check c => some (.full check c)

/-- The result of byte stuffing. -/
structure StuffResult (cfg : Config) where
  ok : Bool
  report : Option Report
  out : StuffedPacketBuffer cfg

/-- `byte_stuffing`, undefined where a store or the published length leaves the array. -/
def byteStuffing? {cfg : Config} (inp : EncodedPacketBuffer cfg) (insertPreFlag : Bool)
    (out : StuffedPacketBuffer cfg) : Option (StuffResult cfg) :=
  let out := out.clear
  (putPreFlag? ⟨out.buffer, 0⟩ insertPreFlag).bind fun o ↦
    (o.andThen fun c ↦ putStuffed? c inp.contents).bind fun o ↦
      (o.andThen putPostFlag?).bind fun o ↦
        match o with
        | .full check c =>
          some ⟨false, some (.insufficientSpace check), { out with buffer := c.buffer }⟩
        | .done c =>
          if h : c.j ≤ cfg.stuffedCapacity then
            some ⟨true, none,
              { out with buffer := c.buffer, size := c.j, bytesRead_le := Nat.zero_le _,
                         size_le := h }⟩
          else none

/-! ### The phases

From a position inside the array each phase stays inside it. The checks leave one cell free in
front of the limit: a phase comes to its end exactly when the bytes it writes end *strictly* below
the capacity. -/

section Phases

variable {N : ℕ} {c : OutCursor N}

private theorem putStuffed?_of_lt (bs : List UInt8) (h : c.j + (hdlc.stuff bs).length < N) :
    ∃ c', putStuffed? c bs = some (.done c') ∧ c'.j = c.j + (hdlc.stuff bs).length ∧
      c'.written = c.written ++ hdlc.stuff bs := by
  induction bs generalizing c with
  | nil => exact ⟨c, rfl, rfl, by simp⟩
  | cons b bs ih =>
    rw [Framing.Stuffing.stuff_cons, List.length_append, Framing.Stuffing.length_stuffOne] at h
    cases hb : hdlc.special b with
    | true =>
      rw [hb, if_pos rfl] at h
      obtain ⟨c₁, hput₁, hj₁, hw₁⟩ := c.put?_of_lt packetEsc (by omega)
      obtain ⟨c₂, hput₂, hj₂, hw₂⟩ := c₁.put?_of_lt (b ^^^ 0x20) (by omega)
      obtain ⟨c', hrest, hj', hw'⟩ := ih (c := c₂) (by omega)
      refine ⟨c', ?_, ?_, ?_⟩
      · rw [putStuffed?, if_pos (hdlc_special_iff.mp hb), if_neg (by omega), hput₁,
          Option.bind_some, hput₂, Option.bind_some, hrest]
      · rw [Framing.Stuffing.stuff_cons, Framing.Stuffing.stuffOne_of_special hb, hj']
        simp
        omega
      · rw [hw', hw₂, hw₁, Framing.Stuffing.stuff_cons, Framing.Stuffing.stuffOne_of_special hb]
        simp [hdlc]
    | false =>
      rw [hb, if_neg Bool.false_ne_true] at h
      obtain ⟨c₁, hput₁, hj₁, hw₁⟩ := c.put?_of_lt b (by omega)
      obtain ⟨c', hrest, hj', hw'⟩ := ih (c := c₁) (by omega)
      refine ⟨c', ?_, ?_, ?_⟩
      · rw [putStuffed?, if_neg (hdlc_special_eq_false_iff.mp hb),
          if_neg (by omega), hput₁, Option.bind_some, hrest]
      · rw [Framing.Stuffing.stuff_cons, Framing.Stuffing.stuffOne_of_not_special hb, hj']
        simp
        omega
      · rw [hw', hw₁, Framing.Stuffing.stuff_cons, Framing.Stuffing.stuffOne_of_not_special hb]
        simp

private theorem putStuffed?_of_ge (bs : List UInt8) (hj : c.j < N)
    (h : N ≤ c.j + (hdlc.stuff bs).length) :
    ∃ check c', putStuffed? c bs = some (.full check c') := by
  induction bs generalizing c with
  | nil =>
    rw [Framing.Stuffing.stuff_nil, List.length_nil] at h
    omega
  | cons b bs ih =>
    rw [Framing.Stuffing.stuff_cons, List.length_append, Framing.Stuffing.length_stuffOne] at h
    cases hb : hdlc.special b with
    | true =>
      rw [hb, if_pos rfl] at h
      rw [putStuffed?, if_pos (hdlc_special_iff.mp hb)]
      by_cases hfull : c.j + 2 ≥ N
      · exact ⟨2, c, if_pos hfull⟩
      · obtain ⟨c₁, hput₁, hj₁, -⟩ := c.put?_of_lt packetEsc (by omega)
        obtain ⟨c₂, hput₂, hj₂, -⟩ := c₁.put?_of_lt (b ^^^ 0x20) (by omega)
        rw [if_neg hfull, hput₁, Option.bind_some, hput₂, Option.bind_some]
        exact ih (by omega) (by omega)
    | false =>
      rw [hb, if_neg Bool.false_ne_true] at h
      rw [putStuffed?, if_neg (hdlc_special_eq_false_iff.mp hb)]
      by_cases hfull : c.j + 1 ≥ N
      · exact ⟨3, c, if_pos hfull⟩
      · obtain ⟨c₁, hput₁, hj₁, -⟩ := c.put?_of_lt b (by omega)
        rw [if_neg hfull, hput₁, Option.bind_some]
        exact ih (by omega) (by omega)

private theorem putPreFlag?_of_lt (insertPreFlag : Bool) (h : c.j + 1 < N) :
    ∃ c', putPreFlag? c insertPreFlag = some (.done c') ∧
      c'.j = c.j + (if insertPreFlag then 1 else 0) ∧
      c'.written = c.written ++ if insertPreFlag then [packetFlag] else [] := by
  cases insertPreFlag with
  | true =>
    obtain ⟨c', hput, hj, hw⟩ := c.put?_of_lt packetFlag (by omega)
    exact ⟨c', by rw [putPreFlag?, if_pos rfl, if_neg (by omega), hput]; rfl, hj, hw⟩
  | false => exact ⟨c, rfl, rfl, by simp⟩

private theorem putPostFlag?_of_lt (h : c.j + 1 < N) :
    ∃ c', putPostFlag? c = some (.done c') ∧ c'.j = c.j + 1 ∧
      c'.written = c.written ++ [packetFlag] := by
  obtain ⟨c', hput, hj, hw⟩ := c.put?_of_lt packetFlag (by omega)
  exact ⟨c', by rw [putPostFlag?, if_neg (by omega), hput]; rfl, hj, hw⟩

end Phases

variable {cfg : Config}

/-- The number of bytes stuffing a packet takes. -/
def stuffedLength (insertPreFlag : Bool) (bytes : List UInt8) : ℕ :=
  (if insertPreFlag then 1 else 0) + bytes.length + bytes.countP hdlc.special + 1

private theorem stuffedLength_eq (insertPreFlag : Bool) (bytes : List UInt8) :
    stuffedLength insertPreFlag bytes
      = (if insertPreFlag then 1 else 0) + (hdlc.stuff bytes).length + 1 := by
  rw [stuffedLength, Framing.Stuffing.length_stuff]
  omega

theorem fourteen_le_stuffedCapacity (cfg : Config) : 14 ≤ cfg.stuffedCapacity := by
  have h := cfg.eight_le_maxPacketLen
  rw [Config.stuffedCapacity]
  omega

/-- **Byte stuffing that fits.** The output must stay *strictly* below the capacity. -/
theorem byteStuffing?_of_lt (inp : EncodedPacketBuffer cfg) (insertPreFlag : Bool)
    (out : StuffedPacketBuffer cfg)
    (h : stuffedLength insertPreFlag inp.contents < cfg.stuffedCapacity) :
    ∃ r, byteStuffing? inp insertPreFlag out = some r ∧ r.ok = true ∧
      r.out.contents
        = (if insertPreFlag then [packetFlag] else []) ++ hdlc.stuff inp.contents
          ++ [packetFlag] := by
  rw [stuffedLength_eq] at h
  have hcap := fourteen_le_stuffedCapacity cfg
  obtain ⟨c₁, h₁, hj₁, hw₁⟩ :=
    putPreFlag?_of_lt (c := ⟨out.clear.buffer, 0⟩) insertPreFlag (by dsimp only; omega)
  dsimp only at hj₁
  obtain ⟨c₂, h₂, hj₂, hw₂⟩ := putStuffed?_of_lt (c := c₁) inp.contents (by omega)
  obtain ⟨c₃, h₃, hj₃, hw₃⟩ := putPostFlag?_of_lt (c := c₂) (by omega)
  have hle : c₃.j ≤ cfg.stuffedCapacity := by omega
  refine ⟨⟨true, none, ⟨c₃.j, c₃.buffer, 0, false, false, Nat.zero_le _, hle⟩⟩, ?_, rfl, ?_⟩
  · rw [byteStuffing?, h₁, Option.bind_some, StuffOutcome.andThen, h₂, Option.bind_some,
      StuffOutcome.andThen, h₃, Option.bind_some]
    exact dif_pos hle
  · have hw : c₃.written
        = (if insertPreFlag then [packetFlag] else []) ++ hdlc.stuff inp.contents
          ++ [packetFlag] := by
      rw [hw₃, hw₂, hw₁]
      simp [OutCursor.written]
    exact hw

/-- **Byte stuffing that does not fit** reports failure and leaves the output empty. -/
theorem byteStuffing?_of_ge (inp : EncodedPacketBuffer cfg) (insertPreFlag : Bool)
    (out : StuffedPacketBuffer cfg)
    (h : cfg.stuffedCapacity ≤ stuffedLength insertPreFlag inp.contents) :
    ∃ r, byteStuffing? inp insertPreFlag out = some r ∧ r.ok = false ∧ r.out.contents = [] := by
  rw [stuffedLength_eq] at h
  have hcap := fourteen_le_stuffedCapacity cfg
  obtain ⟨c₁, h₁, hj₁, -⟩ :=
    putPreFlag?_of_lt (c := ⟨out.clear.buffer, 0⟩) insertPreFlag (by dsimp only; omega)
  dsimp only at hj₁
  have hone : (if insertPreFlag then 1 else 0) ≤ 1 := by split <;> omega
  by_cases hmid : c₁.j + (hdlc.stuff inp.contents).length < cfg.stuffedCapacity
  · obtain ⟨c₂, h₂, hj₂, -⟩ := putStuffed?_of_lt (c := c₁) inp.contents hmid
    have h₃ : putPostFlag? c₂ = some (.full 4 c₂) := if_pos (by omega)
    refine ⟨⟨false, some (.insufficientSpace 4), { out.clear with buffer := c₂.buffer }⟩, ?_, rfl,
      filled_zero _⟩
    rw [byteStuffing?, h₁, Option.bind_some, StuffOutcome.andThen, h₂, Option.bind_some,
      StuffOutcome.andThen, h₃, Option.bind_some]
  · obtain ⟨check, c₂, h₂⟩ := putStuffed?_of_ge (c := c₁) inp.contents (by omega) (by omega)
    refine ⟨⟨false, some (.insufficientSpace check), { out.clear with buffer := c₂.buffer }⟩, ?_,
      rfl, filled_zero _⟩
    rw [byteStuffing?, h₁, Option.bind_some, StuffOutcome.andThen, h₂, Option.bind_some,
      StuffOutcome.andThen, Option.bind_some]

/-- **No store of `byte_stuffing` leaves the output array.** -/
theorem byteStuffing?_isSome (inp : EncodedPacketBuffer cfg) (insertPreFlag : Bool)
    (out : StuffedPacketBuffer cfg) : (byteStuffing? inp insertPreFlag out).isSome = true := by
  by_cases h : stuffedLength insertPreFlag inp.contents < cfg.stuffedCapacity
  · obtain ⟨r, hr, -⟩ := byteStuffing?_of_lt inp insertPreFlag out h
    rw [hr, Option.isSome_some]
  · obtain ⟨r, hr, -⟩ := byteStuffing?_of_ge inp insertPreFlag out (by omega)
    rw [hr, Option.isSome_some]

/-- `byte_stuffing`. -/
def byteStuffing (inp : EncodedPacketBuffer cfg) (insertPreFlag : Bool)
    (out : StuffedPacketBuffer cfg) : StuffResult cfg :=
  (byteStuffing? inp insertPreFlag out).get (byteStuffing?_isSome inp insertPreFlag out)

theorem byteStuffing?_eq (inp : EncodedPacketBuffer cfg) (insertPreFlag : Bool)
    (out : StuffedPacketBuffer cfg) :
    byteStuffing? inp insertPreFlag out = some (byteStuffing inp insertPreFlag out) :=
  (Option.some_get _).symm

theorem byteStuffing_ok_iff (inp : EncodedPacketBuffer cfg) (insertPreFlag : Bool)
    (out : StuffedPacketBuffer cfg) :
    (byteStuffing inp insertPreFlag out).ok = true ↔
      stuffedLength insertPreFlag inp.contents < cfg.stuffedCapacity := by
  have heq := byteStuffing?_eq inp insertPreFlag out
  by_cases h : stuffedLength insertPreFlag inp.contents < cfg.stuffedCapacity
  · obtain ⟨r, hr, hok, -⟩ := byteStuffing?_of_lt inp insertPreFlag out h
    rw [← Option.some_inj.mp (hr.symm.trans heq), hok]
    simp [h]
  · obtain ⟨r, hr, hok, -⟩ := byteStuffing?_of_ge inp insertPreFlag out (by omega)
    rw [← Option.some_inj.mp (hr.symm.trans heq), hok]
    simp [h]

theorem contents_byteStuffing (inp : EncodedPacketBuffer cfg) (insertPreFlag : Bool)
    (out : StuffedPacketBuffer cfg) :
    (byteStuffing inp insertPreFlag out).out.contents
      = if (byteStuffing inp insertPreFlag out).ok then
          (if insertPreFlag then [packetFlag] else []) ++ hdlc.stuff inp.contents ++ [packetFlag]
        else [] := by
  have heq := byteStuffing?_eq inp insertPreFlag out
  by_cases h : stuffedLength insertPreFlag inp.contents < cfg.stuffedCapacity
  · obtain ⟨r, hr, hok, hout⟩ := byteStuffing?_of_lt inp insertPreFlag out h
    rw [← Option.some_inj.mp (hr.symm.trans heq), hok, hout]
    rfl
  · obtain ⟨r, hr, hok, hout⟩ := byteStuffing?_of_ge inp insertPreFlag out (by omega)
    rw [← Option.some_inj.mp (hr.symm.trans heq), hok, hout]
    rfl

/-! ## Encoding -/

/-- `SerialPacketsEncoder`, without its logger reference. -/
structure SerialPacketsEncoder (cfg : Config) where
  tmpData : EncodedPacketBuffer cfg

/-- What an encode function returns and leaves behind. -/
structure EncodeResult (cfg : Config) where
  ok : Bool
  report : Option Report
  encoder : SerialPacketsEncoder cfg
  out : StuffedPacketBuffer cfg

/-- The common body of the three encode functions. They differ in the fields they write in front of
the payload and in the report for a packet that does not fit the scratch buffer. -/
def SerialPacketsEncoder.encode (e : SerialPacketsEncoder cfg)
    (fields : EncodedPacketBuffer cfg → EncodedPacketBuffer cfg) (failure : Report)
    (data : SerialPacketsData cfg) (insertPreFlag : Bool) (out : StuffedPacketBuffer cfg) :
    EncodeResult cfg :=
  let filled := (fields e.tmpData.clear).writeBytes data.contents
  let tmpData := filled.writeUint16 filled.crc16
  if tmpData.hadWriteErrors then ⟨false, some failure, ⟨tmpData⟩, out⟩
  else
    let r := byteStuffing tmpData insertPreFlag out
    ⟨r.ok, r.report, ⟨tmpData⟩, r.out⟩

def SerialPacketsEncoder.encodeCommandPacket (e : SerialPacketsEncoder cfg) (cmdId : UInt32)
    (endpoint : UInt8) (data : SerialPacketsData cfg) (insertPreFlag : Bool)
    (out : StuffedPacketBuffer cfg) : EncodeResult cfg :=
  e.encode (fun t ↦ ((t.writeUint8 typeCommand).writeUint32 cmdId).writeUint8 endpoint)
    (.encodingCommand data.size) data insertPreFlag out

def SerialPacketsEncoder.encodeResponsePacket (e : SerialPacketsEncoder cfg) (cmdId : UInt32)
    (status : UInt8) (data : SerialPacketsData cfg) (insertPreFlag : Bool)
    (out : StuffedPacketBuffer cfg) : EncodeResult cfg :=
  e.encode (fun t ↦ ((t.writeUint8 typeResponse).writeUint32 cmdId).writeUint8 status)
    (.encodingResponse data.size) data insertPreFlag out

def SerialPacketsEncoder.encodeMessagePacket (e : SerialPacketsEncoder cfg) (endpoint : UInt8)
    (data : SerialPacketsData cfg) (insertPreFlag : Bool) (out : StuffedPacketBuffer cfg) :
    EncodeResult cfg :=
  e.encode (fun t ↦ (t.writeUint8 typeMessage).writeUint8 endpoint)
    (.encodingResponse data.size) data insertPreFlag out

/-- The encode function for the packet's kind. -/
def SerialPacketsEncoder.encodePacket (e : SerialPacketsEncoder cfg)
    (p : Packet (SerialPacketsData cfg)) (insertPreFlag : Bool) (out : StuffedPacketBuffer cfg) :
    EncodeResult cfg :=
  match p with
  | .command cmdId endpoint data => e.encodeCommandPacket cmdId endpoint data insertPreFlag out
  | .response cmdId status data => e.encodeResponsePacket cmdId status data insertPreFlag out
  | .message endpoint data => e.encodeMessagePacket endpoint data insertPreFlag out

/-! ### The scratch buffer

The scratch buffer has room for the longest packet, so the checks on it never fire. -/

/-- A buffer that has taken all its writes, and what it holds. -/
structure Holds {N : ℕ} (b : SerialPacketsBuffer N) (bytes : List UInt8) : Prop where
  contents : b.contents = bytes
  noErrors : b.hadWriteErrors = false

private theorem Holds.clear {N : ℕ} (b : SerialPacketsBuffer N) : Holds b.clear [] := ⟨by simp, rfl⟩

private theorem Holds.writeBytes {N : ℕ} {b : SerialPacketsBuffer N} {bytes more : List UInt8}
    (h : Holds b bytes) (hfit : bytes.length + more.length ≤ N) :
    Holds (b.writeBytes more) (bytes ++ more) := by
  have hsize : b.size = bytes.length := by
    rw [← h.contents, SerialPacketsBuffer.length_contents]
  have hfit' : b.size + more.length ≤ N := by omega
  exact ⟨by rw [SerialPacketsBuffer.contents_writeBytes h.noErrors hfit', h.contents],
    SerialPacketsBuffer.hadWriteErrors_writeBytes h.noErrors hfit'⟩

/-- One encode function, given that its fields take up at most six bytes. -/
private theorem SerialPacketsEncoder.encode_eq (e : SerialPacketsEncoder cfg)
    (fields : EncodedPacketBuffer cfg → EncodedPacketBuffer cfg) (header : List UInt8)
    (hfields : Holds (fields e.tmpData.clear) header) (hlen : header.length ≤ 6)
    (failure : Report) (data : SerialPacketsData cfg) (insertPreFlag : Bool)
    (out : StuffedPacketBuffer cfg) :
    ∃ tmpData : EncodedPacketBuffer cfg,
      Holds tmpData (header ++ data.contents
        ++ BigEndian.bytes16 (serialPacketsGenCrc16 (header ++ data.contents))) ∧
      e.encode fields failure data insertPreFlag out
        = ⟨(byteStuffing tmpData insertPreFlag out).ok,
            (byteStuffing tmpData insertPreFlag out).report, ⟨tmpData⟩,
            (byteStuffing tmpData insertPreFlag out).out⟩ := by
  have hdata := SerialPacketsData.length_contents_le data
  have hfilled : Holds ((fields e.tmpData.clear).writeBytes data.contents)
      (header ++ data.contents) := by
    refine hfields.writeBytes ?_
    rw [Config.encodedCapacity, Config.maxPacketLen, maxPacketOverhead]
    omega
  set filled := (fields e.tmpData.clear).writeBytes data.contents with hdef
  have hcrc : Holds (filled.writeUint16 filled.crc16) (header ++ data.contents
      ++ BigEndian.bytes16 (serialPacketsGenCrc16 (header ++ data.contents))) := by
    rw [SerialPacketsBuffer.writeUint16, SerialPacketsBuffer.crc16, hfilled.contents]
    refine hfilled.writeBytes ?_
    rw [List.length_append, BigEndian.length_bytes16, Config.encodedCapacity, Config.maxPacketLen,
      maxPacketOverhead]
    omega
  refine ⟨filled.writeUint16 filled.crc16, hcrc, ?_⟩
  rw [SerialPacketsEncoder.encode, ← hdef, if_neg (by rw [hcrc.noErrors]; exact Bool.false_ne_true)]

/-- **Encoding is stuffing the packet body**: whatever the scratch buffer held before, it takes the
whole packet without a write error, and is then stuffed. -/
theorem SerialPacketsEncoder.encodePacket_eq (e : SerialPacketsEncoder cfg)
    (p : Packet (SerialPacketsData cfg)) (insertPreFlag : Bool) (out : StuffedPacketBuffer cfg) :
    ∃ tmpData : EncodedPacketBuffer cfg,
      Holds tmpData (p.map SerialPacketsBuffer.contents).body ∧
      e.encodePacket p insertPreFlag out
        = ⟨(byteStuffing tmpData insertPreFlag out).ok,
            (byteStuffing tmpData insertPreFlag out).report, ⟨tmpData⟩,
            (byteStuffing tmpData insertPreFlag out).out⟩ := by
  have hcap : 10 ≤ cfg.encodedCapacity := by
    rw [Config.encodedCapacity, Config.maxPacketLen, maxPacketOverhead]
    omega
  have hclear := Holds.clear e.tmpData
  have hbyte {bytes : List UInt8} {b : EncodedPacketBuffer cfg} (h : Holds b bytes)
      (hlen : bytes.length ≤ 5) (v : UInt8) : Holds (b.writeUint8 v) (bytes ++ [v]) :=
    h.writeBytes (by rw [List.length_singleton]; omega)
  have hword {bytes : List UInt8} {b : EncodedPacketBuffer cfg} (h : Holds b bytes)
      (hlen : bytes.length ≤ 5) (v : UInt32) :
      Holds (b.writeUint32 v) (bytes ++ BigEndian.bytes32 v) :=
    h.writeBytes (by rw [BigEndian.length_bytes32]; omega)
  cases p with
  | command cmdId endpoint data =>
    have hfields := hbyte (hword (hbyte hclear (by simp) typeCommand) (by simp) cmdId) (by simp)
      endpoint
    exact e.encode_eq (fun t ↦ ((t.writeUint8 typeCommand).writeUint32 cmdId).writeUint8 endpoint)
      _ hfields (by simp) _ data insertPreFlag out
  | response cmdId status data =>
    have hfields := hbyte (hword (hbyte hclear (by simp) typeResponse) (by simp) cmdId) (by simp)
      status
    exact e.encode_eq (fun t ↦ ((t.writeUint8 typeResponse).writeUint32 cmdId).writeUint8 status)
      _ hfields (by simp) _ data insertPreFlag out
  | message endpoint data =>
    have hfields := hbyte (hbyte hclear (by simp) typeMessage) (by simp) endpoint
    exact e.encode_eq (fun t ↦ (t.writeUint8 typeMessage).writeUint8 endpoint)
      _ hfields (by simp) _ data insertPreFlag out

theorem SerialPacketsEncoder.encodePacket_noErrors (e : SerialPacketsEncoder cfg)
    (p : Packet (SerialPacketsData cfg)) (insertPreFlag : Bool) (out : StuffedPacketBuffer cfg) :
    (e.encodePacket p insertPreFlag out).encoder.tmpData.hadWriteErrors = false := by
  obtain ⟨tmpData, hholds, heq⟩ := e.encodePacket_eq p insertPreFlag out
  rw [heq]
  exact hholds.noErrors

theorem SerialPacketsEncoder.encodePacket_ok_iff (e : SerialPacketsEncoder cfg)
    (p : Packet (SerialPacketsData cfg)) (insertPreFlag : Bool) (out : StuffedPacketBuffer cfg) :
    (e.encodePacket p insertPreFlag out).ok = true ↔
      (Packet.wire insertPreFlag (p.map SerialPacketsBuffer.contents)).length
        < cfg.stuffedCapacity := by
  obtain ⟨tmpData, hholds, heq⟩ := e.encodePacket_eq p insertPreFlag out
  rw [heq, byteStuffing_ok_iff, hholds.contents, Packet.length_wire, stuffedLength]

theorem SerialPacketsEncoder.contents_encodePacket (e : SerialPacketsEncoder cfg)
    (p : Packet (SerialPacketsData cfg)) (insertPreFlag : Bool) (out : StuffedPacketBuffer cfg) :
    (e.encodePacket p insertPreFlag out).out.contents
      = if (e.encodePacket p insertPreFlag out).ok then
          Packet.wire insertPreFlag (p.map SerialPacketsBuffer.contents)
        else [] := by
  obtain ⟨tmpData, hholds, heq⟩ := e.encodePacket_eq p insertPreFlag out
  rw [heq, contents_byteStuffing, hholds.contents]
  rfl

end SerialPackets

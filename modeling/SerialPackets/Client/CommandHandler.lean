import SerialPackets.Client.Moves
import SerialPackets.Client.SendResults
import SerialPackets.Codec.Grammar

/-!
# Answering a command

A command handler is given the payload inside the decoder and the scratch buffer of the client for
its response, and may send in the meantime. Nothing of that is disturbed: what the handler sees and
leaves is determined by its own reads and writes (`HandlerView`), as if it were not sending at all,
and what is offered to the stream afterwards is the response packet with the status and the bytes it
left (`decodeByte_command`).

The data of a send may be those of the response buffer at that time; a handler that decides what to
do next from what it sees does, in each call, some list of actions (`exists_actions`).
-/

namespace SerialPackets

open Framing

variable {cfg : Config} {H : Type*}

/-! ## The view of the handler -/

/-- What a command handler works on: its result, its input and its output. -/
structure HandlerView (cfg : Config) where
  status : UInt8
  data : SerialPacketsData cfg
  response : SerialPacketsData cfg

/-- What an action of the handler does to its view. Sending does nothing to it. -/
def HandlerView.act (v : HandlerView cfg) : Action cfg H → HandlerView cfg
  | .readData op => { v with data := v.data.applyRead op }
  | .readResponse op => { v with response := v.response.applyRead op }
  | .writeResponse op => { v with response := v.response.applyWrite op }
  | .setStatus status => { v with status := status }
  | .sendCommand .. | .sendMessage .. | .delay _ => v

private theorem HandlerView.contents_foldl_act (v : HandlerView cfg)
    (actions : List (Action cfg H)) :
    (actions.foldl act v).data.contents = v.data.contents := by
  induction actions generalizing v with
  | nil => rfl
  | cons action actions ih =>
    rw [List.foldl_cons, ih]
    rcases action with _ | _ | op | _ | _ | _ | _
    · rfl
    · rfl
    · exact v.data.contents_applyRead op
    · rfl
    · rfl
    · rfl
    · rfl

namespace Device

/-- The view, in the course of a call. -/
def handlerView (s : UInt8 × Device cfg H) : HandlerView cfg :=
  ⟨s.1, s.2.packetDecoder.decodedData, s.2.tmpData⟩

/-! ## Sending leaves the shared buffers alone -/

theorem sendMessage_buffers (d : Device cfg H) (endpoint : UInt8) (data : SerialPacketsData cfg)
    (tx : TxAnswers) :
    (d.sendMessage endpoint data tx).2.tmpData = d.tmpData ∧
      (d.sendMessage endpoint data tx).2.packetDecoder = d.packetDecoder := by
  rcases d.sendMessage_cases endpoint data tx with ⟨-, heq⟩ | ⟨-, d₁, x, -, htx, hlogs, -⟩
  · rw [heq]
    exact ⟨rfl, rfl⟩
  · exact ⟨hlogs.buffers.1.trans htx.tmpData, hlogs.buffers.2.trans htx.decoder⟩

theorem sendCommand_buffers (d : Device cfg H) (endpoint : UInt8) (data : SerialPacketsData cfg)
    (responseHandler : Option H) (timeoutMillis : UInt16) (tx : TxAnswers) :
    (d.sendCommand endpoint data responseHandler timeoutMillis tx).2.tmpData = d.tmpData ∧
      (d.sendCommand endpoint data responseHandler timeoutMillis tx).2.packetDecoder
        = d.packetDecoder := by
  rcases d.sendCommand_cases endpoint data responseHandler timeoutMillis tx with
    ⟨-, -, hlogs⟩ | ⟨-, slot, handler, d₁, x, -, -, -, htx, hrest⟩
  · exact hlogs.buffers
  · rcases hrest with ⟨-, -, hlogs⟩ | ⟨-, hsuccess⟩
    · exact ⟨hlogs.buffers.1.trans htx.tmpData, hlogs.buffers.2.trans htx.decoder⟩
    · rw [hsuccess]
      exact ⟨htx.tmpData, htx.decoder⟩

/-- **Each action does to the view what it would do without the sends.** -/
theorem handlerView_actOnCommand (s : UInt8 × Device cfg H) (action : Action cfg H) :
    handlerView (actOnCommand s action) = (handlerView s).act action := by
  obtain ⟨status, d⟩ := s
  cases action with
  | sendCommand endpoint data responseHandler timeoutMillis tx =>
    obtain ⟨htmp, hdecoder⟩ := d.sendCommand_buffers endpoint data responseHandler timeoutMillis tx
    exact congrArg₂ (fun decoder tmp ↦ HandlerView.mk status decoder.decodedData tmp) hdecoder htmp
  | sendMessage endpoint data tx =>
    obtain ⟨htmp, hdecoder⟩ := d.sendMessage_buffers endpoint data tx
    exact congrArg₂ (fun decoder tmp ↦ HandlerView.mk status decoder.decodedData tmp) hdecoder htmp
  | _ => rfl

private theorem handlerView_foldl (actions : List (Action cfg H)) (s : UInt8 × Device cfg H) :
    handlerView (actions.foldl actOnCommand s) = actions.foldl HandlerView.act (handlerView s) := by
  induction actions generalizing s with
  | nil => rfl
  | cons action actions ih => rw [List.foldl_cons, List.foldl_cons, ih, handlerView_actOnCommand]

/-- A handler that chooses each action from what it sees performs a list of actions. -/
theorem exists_actions (next : UInt8 × Device cfg H → Action cfg H) (n : ℕ)
    (s : UInt8 × Device cfg H) :
    ∃ actions : List (Action cfg H), actions.length = n ∧
      (fun s ↦ actOnCommand s (next s))^[n] s = actions.foldl actOnCommand s := by
  induction n generalizing s with
  | zero => exact ⟨[], rfl, rfl⟩
  | succ n ih =>
    obtain ⟨actions, hlen, hactions⟩ := ih (actOnCommand s (next s))
    exact ⟨next s :: actions, congrArg _ hlen, hactions⟩

/-! ## The call -/

/-- A command packet is answered as if its handler had not been sending. -/
structure AnsweredUndisturbed (react : ℕ → Reaction cfg H) (d : Device cfg H) (b : UInt8)
    (cmdId : UInt32) (endpoint : UInt8) (data : List UInt8) : Prop where
  /-- The handler starts with a status of ok. -/
  startStatus : (handlerStart (d.decoded b) cmdId endpoint).1 = statusOk
  /-- It starts with an empty response buffer without errors. -/
  startResponse : let response := (handlerStart (d.decoded b) cmdId endpoint).2.tmpData
    response.contents = [] ∧ response.bytesRead = 0 ∧ response.hadReadErrors = false ∧
      response.hadWriteErrors = false
  /-- It starts with the data of the packet, of which nothing has been read. -/
  startData : let given := (handlerStart (d.decoded b) cmdId endpoint).2.packetDecoder.decodedData
    given.contents = data ∧ given.bytesRead = 0 ∧ given.hadReadErrors = false
  /-- Whatever it has done so far, only its own reads and writes show. -/
  view : ∀ actions : List (Action cfg H),
    handlerView (actions.foldl actOnCommand (handlerStart (d.decoded b) cmdId endpoint))
      = actions.foldl HandlerView.act (handlerView (handlerStart (d.decoded b) cmdId endpoint))
  /-- Whatever it has done so far, the data are those of the packet. -/
  unchanged : ∀ actions : List (Action cfg H),
    (actions.foldl actOnCommand
      (handlerStart (d.decoded b) cmdId endpoint)).2.packetDecoder.decodedData.contents = data
  /-- After it returns, one attempt is made to send one packet, and nothing else: either no byte is
  offered to the stream, or those of the encoded response with what the handler left, of which the
  stream accepts some; they follow all that was sent before. -/
  answer :
    let actions := (react (d.decoded b).calls).actions
    let left := actions.foldl HandlerView.act
      (handlerView (handlerStart (d.decoded b) cmdId endpoint))
    let returned := (actions.foldl actOnCommand (handlerStart (d.decoded b) cmdId endpoint)).2
    ∃ x : Transmission,
      (d.decodeByte react b).trace = returned.trace ++
        [.commandReturn cmdId endpoint data left.status left.response.contents, .transmitted x] ∧
      (d.decodeByte react b).sent = returned.sent ++ x.bytes ∧
      (x.outcome.IsFailed ∧ x.bytes = [] ∨
        ∃ offered written, x.outcome = .wrote written offered.length ∧
          x.bytes = offered.take written ∧
          ∀ (encoder : SerialPacketsEncoder cfg) (out : StuffedPacketBuffer cfg),
            (encoder.encodeResponsePacket cmdId left.status left.response x.preFlag
              out).out.contents = offered)

variable (react : ℕ → Reaction cfg H)

private theorem Transmits.offered {d d' : Device cfg H} {start : ℕ} {cmdId : UInt32}
    {status : UInt8} {data : SerialPacketsData cfg} {tx : TxAnswers} {x : Transmission}
    (h : Transmits d d' start (.response cmdId status data.contents) tx x) :
    x.outcome.IsFailed ∧ x.bytes = [] ∨
      ∃ offered written, x.outcome = .wrote written offered.length ∧
        x.bytes = offered.take written ∧
        ∀ (encoder : SerialPacketsEncoder cfg) (out : StuffedPacketBuffer cfg),
          (encoder.encodeResponsePacket cmdId status data x.preFlag out).out.contents
            = offered := by
  have hbytes := h.bytes
  have houtcome := h.outcome
  cases ho : x.outcome with
  | encodeFailed =>
    rw [ho] at hbytes
    exact Or.inl ⟨trivial, hbytes.trans List.take_zero⟩
  | noRoom size available =>
    rw [ho] at hbytes
    exact Or.inl ⟨trivial, hbytes.trans List.take_zero⟩
  | wrote written size =>
    rw [ho] at hbytes houtcome
    obtain ⟨hfits, -, -, hsize⟩ := TxOutcome.ofSize_eq_wrote_iff.mp houtcome.symm
    refine Or.inr ⟨_, written, by rw [hsize], hbytes, fun encoder out ↦ ?_⟩
    have hok := (encoder.encodePacket_ok_iff (.response cmdId status data) x.preFlag out).mpr hfits
    have hcontents := encoder.contents_encodePacket (.response cmdId status data) x.preFlag out
    rw [if_pos hok] at hcontents
    exact hcontents

/-- **A command is answered undisturbed**, by every handler and in every state. -/
theorem decodeByte_command {d : Device cfg H} {b : UInt8} {cmdId : UInt32} {endpoint : UInt8}
    {data : List UInt8} (hcloses : Receiver.closes hdlc d.packetDecoder.receiver b
      = some (Packet.command cmdId endpoint data).body)
    (hhandler : d.optionalCommandHandler ≠ none) :
    AnsweredUndisturbed react d b cmdId endpoint data := by
  obtain ⟨hnew, hmeta, hdata⟩ := @SerialPacketsDecoder.decodeNextByte_of_closes _ d.packetDecoder b
    (.command cmdId endpoint) data hcloses
  -- the payload of a command fits whenever its frame does
  have hfit : data.length ≤ cfg.maxPacketDataLen := by
    have hbody : (Packet.command cmdId endpoint data).body.length ≤ cfg.maxPacketLen := by
      rw [← (Receiver.closes_eq_some_iff.mp hcloses).2.2, DecoderState.receiver,
        FixedArray.length_filled d.packetDecoder.packetLen_le]
      exact d.packetDecoder.packetLen_le
    exact @length_payload_le _ (.command cmdId endpoint) data (fun _ h ↦ absurd h (by simp)) hbody
  have hholds := @holdsPayloadOf_of_closes _ d.packetDecoder b (.command cmdId endpoint) data
    hcloses hfit
  have hcontents : (d.decoded b).packetDecoder.decodedData.contents = data := by
    have hcleared : d.packetDecoder.decodedData.clear.size + data.length
        ≤ cfg.maxPacketDataLen := by
      rwa [SerialPacketsBuffer.size_clear, Nat.zero_add]
    rw [decoded, hdata, SerialPacketsBuffer.contents_writeBytes rfl hcleared,
      SerialPacketsBuffer.contents_clear, List.nil_append]
  have hview (actions : List (Action cfg H)) :=
    handlerView_foldl actions (handlerStart (d.decoded b) cmdId endpoint)
  refine ⟨rfl, ⟨SerialPacketsBuffer.contents_clear _, rfl, rfl, rfl⟩,
    ⟨hcontents, hholds.unread, hholds.noReadErrors⟩, hview, ?_, ?_⟩
  · intro actions
    have hsame := congrArg (fun v ↦ v.data.contents) (hview actions)
    rw [HandlerView.contents_foldl_act] at hsame
    exact hsame.trans hcontents
  · intro actions left returned
    have hbyte : d.decodeByte react b
        = (d.decoded b).processDecodedCommandPacket react cmdId endpoint := by
      rw [decodeByte, if_pos hnew, decoded, hmeta]
    have hquiet := (processDecodedCommandPacket_spec (d := d.decoded b) react cmdId endpoint
      hhandler rfl).quiet
    -- where the handler has returned, and what it has left
    set s := actions.foldl actOnCommand (handlerStart (d.decoded b) cmdId endpoint) with hs
    obtain ⟨x, htx, -⟩ := (s.2.emit (.commandReturn cmdId endpoint
      (d.decoded b).packetDecoder.decodedData.contents s.1 s.2.tmpData.contents)).transmit_spec
      (d.decoded b).now (.response cmdId s.1 s.2.tmpData) (react (d.decoded b).calls).tx
    have hleft : left = handlerView s := (hview actions).symm
    refine ⟨x, ?_, ?_, ?_⟩
    · rw [hbyte, hquiet.trace, htx.trace, hcontents, hleft]
      exact List.append_assoc _ _ _
    · rw [hbyte, hquiet.sent, htx.sent]
      rfl
    · rw [hleft]
      exact htx.offered

/-- A client that has received a command but for the closing flag. -/
def commandArriving : Device Config.default Unit :=
  let d := (create (some ()) none 0).begin
  let bytes := packetFlag :: hdlc.stuff (Packet.command 1 2 [3]).body
  { d with packetDecoder := d.packetDecoder.feed bytes }

/-- A command handler that sends a command, sends what it has been given as its response buffer, and
only then fills in the response. -/
def sendingHandler (_ : ℕ) : Reaction Config.default Unit where
  actions :=
    [.sendCommand 7 noBytes (some ()) 500 ⟨0, 0, 100, 100, 1⟩,
      .sendMessage 8 noBytes ⟨0, 0, 100, 5, 1⟩, .readData .readUint8,
      .writeResponse (.writeUint8 9), .setStatus 4]
  tx := ⟨0, 0, 100, 100, 1⟩

theorem decodeByte_command_sendingHandler :
    AnsweredUndisturbed sendingHandler commandArriving packetFlag 1 2 [3] := by
  have hlen : (Packet.command 1 2 [3]).body.length ≤ Config.default.maxPacketLen := by
    decide +kernel
  have hreceiver : commandArriving.packetDecoder.receiver
      = ⟨true, (Packet.command 1 2 [3]).body, false⟩ := by
    rw [commandArriving, SerialPacketsDecoder.receiver_feed, Receiver.run_cons, ← hdlc_flag,
      Receiver.next_flag, Receiver.run_stuff _ rfl (by rwa [Receiver.opened, List.length_nil,
        Nat.zero_add])]
    rfl
  refine decodeByte_command sendingHandler ?_ (Option.some_ne_none ())
  rw [hreceiver, Receiver.closes_eq_some_iff]
  exact ⟨rfl, rfl, rfl⟩

end Device

end SerialPackets

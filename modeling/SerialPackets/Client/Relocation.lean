import SerialPackets.Client.CommandHandler
import SerialPackets.Client.Dispatch
import SerialPackets.Codec.Memory
import SerialPackets.Codec.Rejections

/-!
# Relocation

A client is constructed over whatever its memory holds: only the lengths of its buffers are set, not
their cells, and the metadata of the last packet are not set at all. It is also constructed at
whatever time the clock shows, which wraps around sooner or later.

Neither ever shows. A client that is *relocated*, to other memory and to a time that is later by any
number of milliseconds, does the same in every run: it comes back from the same operations, sends
the same bytes, calls the same callbacks with the same data and logs the same errors, with nothing
but the times shifted (`indistinguishable_of_run`). In particular it makes no difference where in a
run the clock wraps.
-/

namespace SerialPackets

open Framing

variable {cfg : Config} {H : Type*}

/-! ## Shifting times -/

private theorem millis_add (now k : ℕ) : millis (now + k) = millis now + millis k :=
  UInt32.ofNat_add _ _

namespace SerialPacketsTimer

/-- The same timer, started later. -/
def shift (k : ℕ) (timer : SerialPacketsTimer) : SerialPacketsTimer :=
  ⟨timer.startMillis + millis k⟩

private theorem elapsedMillis_shift (k : ℕ) (timer : SerialPacketsTimer) (now : ℕ) :
    (timer.shift k).elapsedMillis (now + k) = timer.elapsedMillis now := by
  rw [elapsedMillis, elapsedMillis, shift, millis_add]
  grind

private theorem reset_add (now k : ℕ) : reset (now + k) = (reset now).shift k := by
  rw [reset, reset, shift, millis_add]

private theorem set_add (now k : ℕ) (elapsedMillis : UInt32) :
    set (now + k) elapsedMillis = (set now elapsedMillis).shift k := by
  rw [set, set, shift, millis_add]
  congr 1
  grind

end SerialPacketsTimer

namespace CommandContext

/-- The same command, sent later. A free context has no expiration time. -/
def shift (k : ℕ) (context : CommandContext H) : CommandContext H :=
  if context.cmdId = 0 then context
  else { context with expirationTimeMillis := context.expirationTimeMillis + millis k }

@[simp] theorem cmdId_shift (k : ℕ) (context : CommandContext H) :
    (context.shift k).cmdId = context.cmdId := by
  rw [shift]
  split <;> rfl

@[simp] theorem responseHandler_shift (k : ℕ) (context : CommandContext H) :
    (context.shift k).responseHandler = context.responseHandler := by
  rw [shift]
  split <;> rfl

private theorem expirationTimeMillis_shift {k : ℕ} {context : CommandContext H}
    (h : context.cmdId ≠ 0) :
    (context.shift k).expirationTimeMillis = context.expirationTimeMillis + millis k := by
  rw [shift, if_neg h]

end CommandContext

/-- The same attempt to send, made later. -/
def Transmission.shift (k : ℕ) (x : Transmission) : Transmission :=
  { x with
    start := x.start + k
    checked := x.checked + k
    reset := x.reset + k
    finish := x.finish + k }

/-- The same event, observed later. -/
def Event.shift (k : ℕ) : Event cfg H → Event cfg H
  | .begun time => .begun (time + k)
  | .transmitted x => .transmitted (x.shift k)
  | e => e

/-! ## Relocated clients -/

namespace Device

variable {react : ℕ → Reaction cfg H} {k : ℕ} {d d' : Device cfg H}

/-- The same client over other memory and `k` milliseconds later: the buffers hold anything, as long
as the decoder is in the same place of the same frame, and all times are shifted. -/
structure Relocated (k : ℕ) (d d' : Device cfg H) : Prop where
  ignoring : d'.ignoreRxForTesting = d.ignoreRxForTesting
  commandHandler : d'.optionalCommandHandler = d.optionalCommandHandler
  messageHandler : d'.optionalMessageHandler = d.optionalMessageHandler
  begun : d'.begun = d.begun
  counter : d'.cmdIdCounter = d.cmdIdCounter
  preFlagTimer : d'.preFlagTimer = d.preFlagTimer.shift k
  cleanupTimer : d'.cleanupTimer = d.cleanupTimer.shift k
  contexts : ∀ slot, d'.commandContexts slot = (d.commandContexts slot).shift k
  receiver : d'.packetDecoder.receiver = d.packetDecoder.receiver
  now : d'.now = d.now + k
  calls : d'.calls = d.calls
  sent : d'.sent = d.sent
  reports : d'.reports = d.reports
  trace : d'.trace = d.trace.map (Event.shift k)

namespace Relocated

theorem setTmpData (h : Relocated k d d') (tmpData tmpData' : SerialPacketsData cfg) :
    Relocated k { d with tmpData := tmpData } { d' with tmpData := tmpData' } := { h with }

theorem log (h : Relocated k d d') (r : Report) : Relocated k (d.log r) (d'.log r) :=
  { h with reports := congrArg (· ++ [r]) h.reports }

theorem wait (h : Relocated k d d') (millis : ℕ) : Relocated k (d.wait millis) (d'.wait millis) :=
  { h with
    now := by
      rw [Device.wait, Device.wait, h.now]
      exact Nat.add_right_comm _ _ _ }

theorem emit (h : Relocated k d d') {e e' : Event cfg H} (he : e' = e.shift k) :
    Relocated k (d.emit e) (d'.emit e') :=
  { h with
    trace := by
      rw [Device.emit, Device.emit, h.trace, List.map_append, he]
      rfl }

theorem call (h : Relocated k d d') {e : Event cfg H} (he : e.shift k = e) :
    Relocated k ({ d with calls := d.calls + 1 }.emit e)
      ({ d' with calls := d.calls + 1 }.emit e) := by
  have hcalled : Relocated k { d with calls := d.calls + 1 } { d' with calls := d.calls + 1 } :=
    { h with calls := rfl }
  exact hcalled.emit he.symm

theorem forceNextPreFlag (h : Relocated k d d') :
    Relocated k d.forceNextPreFlag d'.forceNextPreFlag :=
  { h with
    preFlagTimer := by
      rw [Device.forceNextPreFlag, Device.forceNextPreFlag, h.now]
      exact SerialPacketsTimer.set_add _ _ _ }

theorem begin (h : Relocated k d d') : Relocated k d.begin d'.begin := by
  rw [Device.begin, Device.begin, h.begun]
  split
  · exact h.log _
  · have hbegun : Relocated k { d with begun := true } { d' with begun := true } :=
      { h with begun := rfl }
    exact hbegun.forceNextPreFlag.emit (congrArg Event.begun h.now)

theorem resetCleanupTimer (h : Relocated k d d') :
    Relocated k { d with cleanupTimer := .reset d.now } { d' with cleanupTimer := .reset d'.now } :=
  { h with
    cleanupTimer := by
      rw [h.now]
      exact SerialPacketsTimer.reset_add _ _ }

theorem afterRead (h : Relocated k d d') (waitMillis count got : ℕ) :
    Relocated k (d.afterRead waitMillis count got) (d'.afterRead waitMillis count got) := by
  rw [Device.afterRead, Device.afterRead]
  split
  · exact (h.wait waitMillis).log _
  · exact h.wait waitMillis

theorem assignCmdId (h : Relocated k d d') : Relocated k d.assignCmdId d'.assignCmdId :=
  { h with
    counter := by
      rw [Device.assignCmdId, Device.assignCmdId, h.counter]
    trace := by
      rw [Device.assignCmdId, Device.assignCmdId, h.counter, h.trace, List.map_append]
      rfl }

theorem clearContext (h : Relocated k d d') (slot : Fin cfg.maxPendingCommands) :
    Relocated k (d.clearContext slot) (d'.clearContext slot) :=
  { h with
    contexts := fun other ↦ by
      rw [commandContexts_clearContext, commandContexts_clearContext]
      by_cases hother : other = slot
      · rw [hother, Function.update_self, Function.update_self]
        exact (if_pos rfl).symm
      · rw [Function.update_of_ne hother, Function.update_of_ne hother, h.contexts other]
    trace := by
      rw [Device.clearContext, Device.clearContext, h.trace, List.map_append]
      rfl }

theorem setUpContext (h : Relocated k d d') (slot : Fin cfg.maxPendingCommands) {cmdId : UInt32}
    (hne : cmdId ≠ 0) (handler : H) (timeoutMillis : UInt16) :
    Relocated k (d.setUpContext slot cmdId handler timeoutMillis)
      (d'.setUpContext slot cmdId handler timeoutMillis) :=
  { h with
    contexts := fun other ↦ by
      rw [commandContexts_setUpContext, commandContexts_setUpContext]
      by_cases hother : other = slot
      · rw [hother, Function.update_self, Function.update_self, CommandContext.shift, if_neg hne,
          h.now, millis_add]
        congr 1
        grind
      · rw [Function.update_of_ne hother, Function.update_of_ne hother, h.contexts other]
    trace := by
      rw [Device.setUpContext, Device.setUpContext, h.trace, List.map_append]
      rfl }

theorem findContextWithCmdId (h : Relocated k d d') (cmdId : UInt32) :
    d'.findContextWithCmdId cmdId = d.findContextWithCmdId cmdId := by
  rw [Device.findContextWithCmdId, Device.findContextWithCmdId]
  congr 1
  funext slot
  rw [h.contexts slot, CommandContext.cmdId_shift]

/-! ## Sending -/

theorem checkPreFlag (h : Relocated k d d') (tx : TxAnswers) :
    Relocated k (d.checkPreFlag tx) (d'.checkPreFlag tx) := by
  have hwaited := (h.wait tx.flushMillis).wait tx.resetMillis
  rw [Device.checkPreFlag, Device.checkPreFlag]
  exact { hwaited with
    preFlagTimer := by
      rw [hwaited.now]
      exact SerialPacketsTimer.reset_add _ _ }

theorem preFlagDue (h : Relocated k d d') (millis : ℕ) :
    d'.preFlagDue (d'.now + millis) = d.preFlagDue (d.now + millis) := by
  rw [Device.preFlagDue, Device.preFlagDue, h.now, h.preFlagTimer, Nat.add_right_comm,
    SerialPacketsTimer.elapsedMillis_shift]

theorem encoded (h : Relocated k d d') (encoder encoder' : SerialPacketsEncoder cfg)
    (out out' : StuffedPacketBuffer cfg) (reports : List Report) :
    Relocated k
      { d with
        packetEncoder := encoder
        tmpStuffedPacket := out
        reports := d.reports ++ reports }
      { d' with
        packetEncoder := encoder'
        tmpStuffedPacket := out'
        reports := d'.reports ++ reports } :=
  { h with reports := congrArg (· ++ reports) h.reports }

theorem wrote (h : Relocated k d d') (bytes : List UInt8) :
    Relocated k { d with sent := d.sent ++ bytes } { d' with sent := d'.sent ++ bytes } :=
  { h with sent := congrArg (· ++ bytes) h.sent }

/-- **Attempts to send** end in the same way and send the same bytes. -/
theorem transmit (h : Relocated k d d') (start : ℕ) {p p' : Packet (SerialPacketsData cfg)}
    (hp : p.map SerialPacketsBuffer.contents = p'.map SerialPacketsBuffer.contents)
    (tx : TxAnswers) :
    ∃ o d₁ d₁', d.transmit start p tx = (o, d₁) ∧ d'.transmit (start + k) p' tx = (o, d₁') ∧
      Relocated k d₁ d₁' := by
  have hchecked := h.checkPreFlag tx
  -- the two encoders agree on their reports and on the cells they fill
  have halike := encodePacket_alike (d.checkPreFlag tx).packetEncoder
    (d'.checkPreFlag tx).packetEncoder (d.checkPreFlag tx).tmpStuffedPacket
    (d'.checkPreFlag tx).tmpStuffedPacket hp (d.preFlagDue (d.now + tx.flushMillis))
  have ho := txOutcome_encodePacket (d.checkPreFlag tx).packetEncoder p
    (d.preFlagDue (d.now + tx.flushMillis)) (d.checkPreFlag tx).tmpStuffedPacket tx
  have ho' := txOutcome_encodePacket (d'.checkPreFlag tx).packetEncoder p'
    (d.preFlagDue (d.now + tx.flushMillis)) (d'.checkPreFlag tx).tmpStuffedPacket tx
  rw [Device.transmit, Device.transmit]
  dsimp only
  rw [h.preFlagDue, h.now]
  generalize (d.checkPreFlag tx).packetEncoder.encodePacket p _ _ = r at halike ho ⊢
  generalize (d'.checkPreFlag tx).packetEncoder.encodePacket p' _ _ = r' at halike ho' ⊢
  obtain ⟨-, hreport, hcontents⟩ := halike
  have hencoded := hchecked.encoded r.encoder r'.encoder r.out r'.out r'.report.toList
  rw [ho.trans (hp ▸ ho'.symm), hreport, hp]
  cases txOutcome r' tx with
  | encodeFailed =>
    refine ⟨_, _, _, rfl, rfl, hencoded.emit ?_⟩
    rw [Event.shift, Transmission.shift, hchecked.now, Nat.add_right_comm]
  | noRoom size available =>
    refine ⟨_, _, _, rfl, rfl, hencoded.emit ?_⟩
    rw [Event.shift, Transmission.shift, hchecked.now, Nat.add_right_comm]
  | wrote written size =>
    have hwrote := (hencoded.wait tx.writeMillis).wrote (r'.out.contents.take written)
    rw [hcontents]
    dsimp only
    by_cases hshort : written < size
    · rw [if_pos hshort, if_pos hshort]
      refine ⟨_, _, _, rfl, rfl, hwrote.forceNextPreFlag.emit ?_⟩
      rw [Event.shift, Transmission.shift, hwrote.now, hchecked.now, Nat.add_right_comm]
    · rw [if_neg hshort, if_neg hshort]
      refine ⟨_, _, _, rfl, rfl, hwrote.emit ?_⟩
      rw [Event.shift, Transmission.shift, hwrote.now, hchecked.now, Nat.add_right_comm]

theorem sendMessage (h : Relocated k d d') (endpoint : UInt8) (data : SerialPacketsData cfg)
    (tx : TxAnswers) :
    (d.sendMessage endpoint data tx).1 = (d'.sendMessage endpoint data tx).1 ∧
      Relocated k (d.sendMessage endpoint data tx).2 (d'.sendMessage endpoint data tx).2 := by
  obtain ⟨o, d₁, d₁', htx, htx', hsent⟩ := h.transmit d.now (p := .message endpoint data) rfl tx
  rw [Device.sendMessage, Device.sendMessage, h.begun, h.now, htx, htx']
  split
  · exact ⟨rfl, h⟩
  · rcases o with _ | ⟨size, available⟩ | ⟨written, size⟩
    · exact ⟨rfl, hsent.log _⟩
    · exact ⟨rfl, hsent.log _⟩
    · dsimp only
      split
      · exact ⟨rfl, hsent.log _⟩
      · exact ⟨rfl, hsent⟩

theorem sendCommand (h : Relocated k d d') (endpoint : UInt8) (data : SerialPacketsData cfg)
    (responseHandler : Option H) (timeoutMillis : UInt16) (tx : TxAnswers) :
    (d.sendCommand endpoint data responseHandler timeoutMillis tx).1
        = (d'.sendCommand endpoint data responseHandler timeoutMillis tx).1 ∧
      Relocated k (d.sendCommand endpoint data responseHandler timeoutMillis tx).2
        (d'.sendCommand endpoint data responseHandler timeoutMillis tx).2 := by
  have hid : d'.assignCmdId.cmdIdCounter = d.assignCmdId.cmdIdCounter := h.assignCmdId.counter
  rw [Device.sendCommand.eq_def, Device.sendCommand.eq_def, h.begun, h.now,
    h.findContextWithCmdId]
  split
  · exact ⟨rfl, h⟩
  rcases responseHandler with _ | handler
  · exact ⟨rfl, h.log _⟩
  dsimp only
  split
  · exact ⟨rfl, h.log _⟩
  rcases d.findContextWithCmdId 0 with _ | slot
  · exact ⟨rfl, h.log _⟩
  dsimp only
  obtain ⟨o, d₁, d₁', htx, htx', hsent⟩ := h.assignCmdId.transmit d.now
    (p := .command d.assignCmdId.cmdIdCounter endpoint data) rfl tx
  rw [hid, htx, htx']
  rcases o with _ | ⟨size, available⟩ | ⟨written, size⟩
  · exact ⟨rfl, hsent.log _⟩
  · exact ⟨rfl, hsent.log _⟩
  · dsimp only
    split
    · exact ⟨rfl, hsent.log _⟩
    · exact ⟨rfl, hsent.setUpContext slot (nextCmdId_ne_zero _) handler timeoutMillis⟩

/-! ## Callbacks -/

theorem readData (h : Relocated k d d') (source : Source) (op : SerialPacketsBuffer.ReadOp) :
    Relocated k (d.readData source op) (d'.readData source op) := by
  cases source with
  | decoder => exact { h with }
  | tmpData => exact { h with }

theorem act (h : Relocated k d d') (source : Source) (action : Action cfg H) :
    Relocated k (d.act source action) (d'.act source action) := by
  cases action with
  | sendCommand endpoint data responseHandler timeoutMillis tx =>
    exact (h.sendCommand endpoint data responseHandler timeoutMillis tx).2
  | sendMessage endpoint data tx => exact (h.sendMessage endpoint data tx).2
  | readData op => exact h.readData source op
  | delay millis => exact h.wait millis
  | _ => exact h

theorem foldl_act (h : Relocated k d d') (source : Source) (actions : List (Action cfg H)) :
    Relocated k (actions.foldl (Device.act source) d) (actions.foldl (Device.act source) d') := by
  induction actions generalizing d d' with
  | nil => exact h
  | cons action actions ih => exact ih (h.act source action)

/-- Two calls of a command handler in the same course: it has the same status and sees the same
response buffer. -/
structure SameCourse (k : ℕ) (s s' : UInt8 × Device cfg H) : Prop where
  status : s.1 = s'.1
  relocated : Relocated k s.2 s'.2
  response : s.2.tmpData.queue = s'.2.tmpData.queue

theorem SameCourse.actOnCommand {s s' : UInt8 × Device cfg H} (h : SameCourse k s s')
    (action : Action cfg H) :
    SameCourse k (Device.actOnCommand s action) (Device.actOnCommand s' action) := by
  obtain ⟨status, d⟩ := s
  obtain ⟨status', d'⟩ := s'
  obtain ⟨hstatus, hrelocated, hresponse⟩ := h
  cases action with
  | sendCommand endpoint data responseHandler timeoutMillis tx =>
    refine ⟨hstatus, (hrelocated.sendCommand _ _ _ _ _).2, ?_⟩
    change SerialPacketsBuffer.queue (d.sendCommand endpoint data responseHandler timeoutMillis
      tx).2.tmpData = SerialPacketsBuffer.queue (d'.sendCommand endpoint data responseHandler
        timeoutMillis tx).2.tmpData
    rwa [(d.sendCommand_buffers _ _ _ _ _).1, (d'.sendCommand_buffers _ _ _ _ _).1]
  | sendMessage endpoint data tx =>
    refine ⟨hstatus, (hrelocated.sendMessage _ _ _).2, ?_⟩
    change SerialPacketsBuffer.queue (d.sendMessage endpoint data tx).2.tmpData
      = SerialPacketsBuffer.queue (d'.sendMessage endpoint data tx).2.tmpData
    rwa [(d.sendMessage_buffers _ _ _).1, (d'.sendMessage_buffers _ _ _).1]
  | readResponse op =>
    exact ⟨hstatus, hrelocated.setTmpData _ _,
      SerialPacketsBuffer.queue_applyRead_congr hresponse op⟩
  | writeResponse op =>
    exact ⟨hstatus, hrelocated.setTmpData _ _,
      SerialPacketsBuffer.queue_applyWrite_congr hresponse op⟩
  | setStatus status => exact ⟨rfl, hrelocated, hresponse⟩
  | readData op => exact ⟨hstatus, hrelocated.readData .decoder op, hresponse⟩
  | delay millis => exact ⟨hstatus, hrelocated.wait millis, hresponse⟩

theorem SameCourse.foldl {s s' : UInt8 × Device cfg H} (h : SameCourse k s s')
    (actions : List (Action cfg H)) :
    SameCourse k (actions.foldl Device.actOnCommand s) (actions.foldl Device.actOnCommand s') := by
  induction actions generalizing s s' with
  | nil => exact h
  | cons action actions ih => exact ih (h.actOnCommand action)

theorem callResponseHandler (h : Relocated k d d') (slot : Fin cfg.maxPendingCommands) (handler : H)
    (cmdId : UInt32) (status : UInt8) (data : List UInt8) (origin : Origin) :
    Relocated k (d.callResponseHandler react slot handler cmdId status data origin)
      (d'.callResponseHandler react slot handler cmdId status data origin) := by
  rw [Device.callResponseHandler.eq_def, Device.callResponseHandler.eq_def, h.calls]
  exact (h.call rfl).foldl_act _ _

/-! ## Receiving -/

theorem decoded (h : Relocated k d d') (b : UInt8) :
    Relocated k (d.decoded b) (d'.decoded b) :=
  { h with
    receiver := by
      rw [Device.decoded, Device.decoded]
      dsimp only
      rw [(SerialPacketsDecoder.decodeNextByte_spec _ b).1,
        (SerialPacketsDecoder.decodeNextByte_spec _ b).1, h.receiver]
    reports := by
      rw [Device.decoded, Device.decoded]
      dsimp only
      rw [SerialPacketsDecoder.report_decodeNextByte, SerialPacketsDecoder.report_decodeNextByte,
        h.receiver, h.reports] }

theorem handlerStart (h : Relocated k d d')
    (hdata : d.packetDecoder.decodedData.contents = d'.packetDecoder.decodedData.contents)
    (cmdId : UInt32) (endpoint : UInt8) :
    SameCourse k (d.handlerStart cmdId endpoint) (d'.handlerStart cmdId endpoint) := by
  rw [Device.handlerStart, Device.handlerStart, hdata, h.calls]
  exact ⟨rfl, (h.setTmpData _ _).call rfl, SerialPacketsBuffer.queue_clear _ _⟩

theorem processDecodedCommandPacket (h : Relocated k d d')
    (hdata : d.packetDecoder.decodedData.contents = d'.packetDecoder.decodedData.contents)
    (cmdId : UInt32) (endpoint : UInt8) :
    Relocated k (d.processDecodedCommandPacket react cmdId endpoint)
      (d'.processDecodedCommandPacket react cmdId endpoint) := by
  have hcourse := (h.handlerStart hdata cmdId endpoint).foldl (react d.calls).actions
  rw [Device.handlerStart, Device.handlerStart] at hcourse
  rw [Device.processDecodedCommandPacket, Device.processDecodedCommandPacket]
  by_cases hhandler : d.optionalCommandHandler.isNone = true
  · rw [if_pos hhandler, if_pos (h.commandHandler ▸ hhandler)]
    exact h.log _
  rw [if_neg hhandler, if_neg (h.commandHandler ▸ hhandler)]
  dsimp only
  -- both handlers have done the same, and have left the same response in their buffers
  generalize (react d.calls).actions.foldl Device.actOnCommand _ = s at hcourse ⊢
  rw [h.calls] at hcourse ⊢
  generalize (react d.calls).actions.foldl Device.actOnCommand _ = s' at hcourse ⊢
  obtain ⟨status, d₁⟩ := s
  obtain ⟨status', d₁'⟩ := s'
  obtain ⟨hstatus, hreturned, hresponse⟩ := hcourse
  obtain rfl : status = status' := hstatus
  have hcontents : d₁.tmpData.contents = d₁'.tmpData.contents :=
    congrArg BoundedQueue.items hresponse
  dsimp only at hreturned ⊢
  rw [h.now, hdata, hcontents]
  have hemitted : Relocated k
      (d₁.emit (.commandReturn cmdId endpoint d'.packetDecoder.decodedData.contents status
        d₁'.tmpData.contents))
      (d₁'.emit (.commandReturn cmdId endpoint d'.packetDecoder.decodedData.contents status
        d₁'.tmpData.contents)) := hreturned.emit rfl
  have hp : (Packet.response cmdId status d₁.tmpData).map SerialPacketsBuffer.contents
      = (Packet.response cmdId status d₁'.tmpData).map SerialPacketsBuffer.contents :=
    congrArg (Packet.response cmdId status) hcontents
  obtain ⟨o, d₂, d₂', htx, htx', hsent⟩ := hemitted.transmit d.now hp (react d.calls).tx
  rw [htx, htx']
  rcases o with _ | ⟨size, available⟩ | ⟨written, size⟩
  · exact hsent.log _
  · exact hsent.log _
  · dsimp only
    split
    · exact hsent.log _
    · exact hsent

theorem processDecodedResponsePacket (h : Relocated k d d')
    (hdata : d.packetDecoder.decodedData.contents = d'.packetDecoder.decodedData.contents)
    (cmdId : UInt32) (status : UInt8) :
    Relocated k (d.processDecodedResponsePacket react cmdId status)
      (d'.processDecodedResponsePacket react cmdId status) := by
  rw [Device.processDecodedResponsePacket, Device.processDecodedResponsePacket,
    h.findContextWithCmdId, hdata]
  split
  · exact h.log _
  rcases d.findContextWithCmdId cmdId with _ | slot
  · exact h.log _
  dsimp only
  rw [h.contexts slot, CommandContext.responseHandler_shift]
  rcases (d.commandContexts slot).responseHandler with _ | handler
  · exact h.log _
  · exact (h.callResponseHandler _ _ _ _ _ _).clearContext slot

theorem processDecodedMessagePacket (h : Relocated k d d')
    (hdata : d.packetDecoder.decodedData.contents = d'.packetDecoder.decodedData.contents)
    (endpoint : UInt8) :
    Relocated k (d.processDecodedMessagePacket react endpoint)
      (d'.processDecodedMessagePacket react endpoint) := by
  rw [Device.processDecodedMessagePacket, Device.processDecodedMessagePacket,
    h.messageHandler, h.calls, hdata]
  split
  · exact h.log _
  · exact (h.call rfl).foldl_act _ _

theorem decodeByte (h : Relocated k d d') (b : UInt8) :
    Relocated k (d.decodeByte react b) (d'.decodeByte react b) := by
  have hreport : d'.packetDecoder.reportAt b = d.packetDecoder.reportAt b := by
    rw [SerialPacketsDecoder.reportAt_eq, SerialPacketsDecoder.reportAt_eq, h.receiver]
  cases hp : d.packetDecoder.reportAt b with
  | none =>
    rw [decodeByte_of_reportAt_none hp, decodeByte_of_reportAt_none (hreport.trans hp)]
    exact h.decoded b
  | some p =>
    obtain ⟨hdata, hd⟩ := decodeByte_of_reportAt react hp
    obtain ⟨hdata', hd'⟩ := decodeByte_of_reportAt react (hreport.trans hp)
    rw [hd, hd']
    cases p with
    | command cmdId endpoint data =>
      exact (h.decoded b).processDecodedCommandPacket (hdata.trans hdata'.symm) cmdId endpoint
    | response cmdId status data =>
      exact (h.decoded b).processDecodedResponsePacket (hdata.trans hdata'.symm) cmdId status
    | message endpoint data =>
      exact (h.decoded b).processDecodedMessagePacket (hdata.trans hdata'.symm) endpoint

theorem foldl_decodeByte (h : Relocated k d d') (bytes : List UInt8) :
    Relocated k (bytes.foldl (Device.decodeByte react) d)
      (bytes.foldl (Device.decodeByte react) d') := by
  induction bytes generalizing d d' with
  | nil => exact h
  | cons b bytes ih => exact ih (h.decodeByte b)

theorem loopRx? (h : Relocated k d d') (n : ℕ) (answers : List ReadAnswer) :
    Option.Rel (Relocated k) (Device.loopRx? react d n answers)
      (Device.loopRx? react d' n answers) := by
  induction answers generalizing d d' n with
  | nil =>
    cases n with
    | zero => exact .some h
    | succ n => exact .none
  | cons answer answers ih =>
    cases n with
    | zero => exact .some h
    | succ n =>
      rw [Device.loopRx?, Device.loopRx?]
      have hread := h.afterRead answer.waitMillis (min rxTransferBufferLen (n + 1))
        (answer.bytes.take (min rxTransferBufferLen (n + 1))).length
      rw [hread.ignoring]
      split
      · exact .some hread
      · exact ih (hread.foldl_decodeByte _) _

/-! ## Timeouts -/

/-- What is left of a timeout is a difference of times. -/
theorem cleanupSlot (h : Relocated k d d') (millisNow : UInt32)
    (slot : Fin cfg.maxPendingCommands) :
    Relocated k (d.cleanupSlot react millisNow slot)
      (d'.cleanupSlot react (millisNow + millis k) slot) := by
  rw [Device.cleanupSlot, Device.cleanupSlot, h.contexts slot]
  dsimp only
  rw [CommandContext.cmdId_shift, CommandContext.responseHandler_shift]
  by_cases hfree : (d.commandContexts slot).cmdId = 0
  · rw [if_pos hfree, if_pos hfree]
    exact h
  have hleft : ((d.commandContexts slot).shift k).expirationTimeMillis - (millisNow + millis k)
      = (d.commandContexts slot).expirationTimeMillis - millisNow := by
    rw [CommandContext.expirationTimeMillis_shift hfree]
    grind
  rw [if_neg hfree, if_neg hfree, hleft]
  split
  · exact h
  rcases (d.commandContexts slot).responseHandler with _ | handler
  · exact ((h.log _).log _).clearContext slot
  · exact (((h.log _).setTmpData _ _).callResponseHandler _ _ _ _ _ _).clearContext slot

theorem foldl_cleanupSlot (h : Relocated k d d') (millisNow : UInt32)
    (slots : List (Fin cfg.maxPendingCommands)) :
    Relocated k (slots.foldl (Device.cleanupSlot react millisNow) d)
      (slots.foldl (Device.cleanupSlot react (millisNow + millis k)) d') := by
  induction slots generalizing d d' with
  | nil => exact h
  | cons slot slots ih => exact ih (h.cleanupSlot millisNow slot)

theorem sweep (h : Relocated k d d') :
    Relocated k (d.sweep react (millis d.now)) (d'.sweep react (millis d'.now)) := by
  rw [Device.sweep, Device.sweep, h.now, millis_add]
  exact h.foldl_cleanupSlot _ _

theorem loopCleanup (h : Relocated k d d') (resetMillis sweepMillis : ℕ) :
    Relocated k (d.loopCleanup react resetMillis sweepMillis)
      (d'.loopCleanup react resetMillis sweepMillis) := by
  rw [Device.loopCleanup, Device.loopCleanup, h.cleanupTimer, h.now,
    SerialPacketsTimer.elapsedMillis_shift]
  split
  · exact h
  · dsimp only
    exact ((h.wait resetMillis).resetCleanupTimer.wait sweepMillis).sweep

/-! ## Runs -/

theorem loop (h : Relocated k d d') (input : LoopInput) :
    Option.Rel (Relocated k) (d.loop react input) (d'.loop react input) := by
  rw [Device.loop, Device.loop, h.begun]
  split
  · exact .some h
  · have hread : Option.Rel (Relocated k)
        (Device.loopRx? react d (input.available % 2 ^ 16).toNat input.reads)
        (Device.loopRx? react d' (input.available % 2 ^ 16).toNat input.reads) := h.loopRx? _ _
    generalize Device.loopRx? react d _ _ = o at hread ⊢
    generalize Device.loopRx? react d' _ _ = o' at hread ⊢
    rcases hread with hread | _
    · exact .some (hread.loopCleanup _ _)
    · exact .none

theorem step (h : Relocated k d d') (op : Op cfg H) :
    Option.Rel (Relocated k) (d.step react op) (d'.step react op) := by
  cases op with
  | begin => exact .some h.begin
  | sendCommand endpoint data responseHandler timeoutMillis tx =>
    exact .some (h.sendCommand endpoint data responseHandler timeoutMillis tx).2
  | sendMessage endpoint data tx => exact .some (h.sendMessage endpoint data tx).2
  | loop input => exact h.loop input
  | delay millis => exact .some (h.wait millis)

end Relocated

/-- Two clients that have done the same so far, one of them later, and would give the same answers
to the next call. -/
structure Indistinguishable (k : ℕ) (d d' : Device cfg H) : Prop extends Relocated k d d' where
  commandResult : ∀ (endpoint : UInt8) (data : SerialPacketsData cfg) (responseHandler : Option H)
    (timeoutMillis : UInt16) (tx : TxAnswers),
    (d.sendCommand endpoint data responseHandler timeoutMillis tx).1
      = (d'.sendCommand endpoint data responseHandler timeoutMillis tx).1
  messageResult : ∀ (endpoint : UInt8) (data : SerialPacketsData cfg) (tx : TxAnswers),
    (d.sendMessage endpoint data tx).1 = (d'.sendMessage endpoint data tx).1

theorem Relocated.indistinguishable (h : Relocated k d d') : Indistinguishable k d d' where
  toRelocated := h
  commandResult endpoint data responseHandler timeoutMillis tx :=
    (h.sendCommand endpoint data responseHandler timeoutMillis tx).1
  messageResult endpoint data tx := (h.sendMessage endpoint data tx).1

/-- **Neither the memory nor the clock shows.** Over every run of operations, a client and a
relocated one come back from the same operations, and are indistinguishable when they do. -/
theorem indistinguishable_of_run (react : ℕ → Reaction cfg H) (h : Relocated k d d')
    (ops : List (Op cfg H)) :
    Option.Rel (Indistinguishable k) (Runs.run (Device.step react) d ops)
      (Runs.run (Device.step react) d' ops) := by
  have hstep (op : Op cfg H) (a b : Device cfg H) (hab : Relocated k a b) :
      Option.Rel (Relocated k) (a.step react op) (b.step react op) := hab.step op
  have hrun := Runs.rel_run hstep h ops
  generalize Runs.run (Device.step react) d ops = o at hrun ⊢
  generalize Runs.run (Device.step react) d' ops = o' at hrun ⊢
  rcases hrun with hrun | _
  · exact .some hrun.indistinguishable
  · exact .none

/-- What the constructor of a client finds in its memory and leaves there: the cells of the buffers,
and the metadata of the last packet. -/
structure ClientMemory (cfg : Config) where
  tmpData : Vector UInt8 cfg.maxPacketDataLen
  tmpStuffedPacket : Vector UInt8 cfg.stuffedCapacity
  encoderTmpData : Vector UInt8 cfg.encodedCapacity
  packetBuffer : Vector UInt8 cfg.maxPacketLen
  decodedMetadata : DecodedPacketMetadata
  decodedData : Vector UInt8 cfg.maxPacketDataLen

/-- A client constructed at some time over some memory. -/
def createOver (memory : ClientMemory cfg) (commandHandler messageHandler : Option H) (now : ℕ) :
    Device cfg H :=
  { create commandHandler messageHandler now with
    tmpData := .fresh memory.tmpData
    tmpStuffedPacket := .fresh memory.tmpStuffedPacket
    packetEncoder := ⟨.fresh memory.encoderTmpData⟩
    packetDecoder := .fresh memory.packetBuffer memory.decodedMetadata memory.decodedData }

theorem relocated_createOver (memory memory' : ClientMemory cfg)
    (commandHandler messageHandler : Option H) (now k : ℕ) :
    Relocated k (createOver memory commandHandler messageHandler now)
      (createOver memory' commandHandler messageHandler (now + k)) where
  ignoring := rfl
  commandHandler := rfl
  messageHandler := rfl
  begun := rfl
  counter := rfl
  preFlagTimer := SerialPacketsTimer.reset_add now k
  cleanupTimer := SerialPacketsTimer.reset_add now k
  contexts _ := (if_pos rfl).symm
  receiver := (SerialPacketsDecoder.receiver_fresh _ _ _).trans
    (SerialPacketsDecoder.receiver_fresh _ _ _).symm
  now := rfl
  calls := rfl
  sent := rfl
  reports := rfl
  trace := rfl

/-- Two clients over different memory; the clock of the second one wraps in the middle of the
run. -/
theorem indistinguishable_of_run_wrap :
    let zeros : ClientMemory Config.default :=
      ⟨.replicate _ 0, .replicate _ 0, .replicate _ 0, .replicate _ 0, .command 0 0, .replicate _ 0⟩
    let counting : ClientMemory Config.default :=
      ⟨.ofFn fun i ↦ UInt8.ofNat i, .ofFn fun i ↦ UInt8.ofNat i, .replicate _ 0x7E,
        .ofFn fun i ↦ UInt8.ofNat i, .message 0xFF, .replicate _ 0x7D⟩
    let ops : List (Op Config.default Unit) :=
      [.begin, .sendCommand 7 noBytes (some ()) 500 ⟨0, 0, 100, 100, 1⟩, .delay 500,
        .loop ⟨2, [⟨1, [packetFlag, 0]⟩], 0, 0⟩]
    Option.Rel (Indistinguishable (2 ^ 32 - 1))
      (Runs.run (Device.step idle) (createOver zeros (some ()) none 0) ops)
      (Runs.run (Device.step idle) (createOver counting (some ()) none (0 + (2 ^ 32 - 1)))
        ops) := by
  intro zeros counting ops
  exact indistinguishable_of_run idle
    (relocated_createOver zeros counting (some ()) none 0 (2 ^ 32 - 1)) ops

end Device

end SerialPackets

import SerialPackets.Client.Moves

/-!
# What sending leaves alone

What a callback does to its client is sending, reading and waiting. An observation of a client that
none of the things changes which these are made of (`LeftAlone`) is not changed by the send paths,
by any callback, by the answer to a command or by a timeout.
-/

namespace SerialPackets

variable {cfg : Config} {H : Type*}

/-- The error is about a packet to be sent or about a timeout. -/
def Report.isOutgoing : Report → Bool
  | failedResponse | noRoomForResponse _ | shortResponse _ _ | commandWithoutHandler
  | invalidTimeout _ | tooManyCommands | failedCommand | noRoomForCommand _ _ | shortCommand _ _
  | failedMessage _ | noRoomForMessage _ _ | shortMessage _ _ | commandTimeout _
  | timeoutWithoutHandler _ => true
  | _ => false

namespace Device

variable {β : Type*} {f : Device cfg H → β}

/-- Nothing that sending and callbacks are made of changes the observation. -/
structure LeftAlone (f : Device cfg H → β) : Prop where
  wait (d : Device cfg H) (millis : ℕ) : f (d.wait millis) = f d
  log (d : Device cfg H) {r : Report} (hr : r.isOutgoing = true) : f (d.log r) = f d
  emit (d : Device cfg H) (e : Event cfg H) : f (d.emit e) = f d
  called (d : Device cfg H) : f { d with calls := d.calls + 1 } = f d
  tmpData (d : Device cfg H) (data : SerialPacketsData cfg) : f { d with tmpData := data } = f d
  readDecoder (d : Device cfg H) (op : SerialPacketsBuffer.ReadOp) :
    f { d with packetDecoder := d.packetDecoder.applyRead op } = f d
  assignCmdId (d : Device cfg H) : f d.assignCmdId = f d
  setUpContext (d : Device cfg H) (slot : Fin cfg.maxPendingCommands) (cmdId : UInt32)
    (handler : H) (timeoutMillis : UInt16) :
    f (d.setUpContext slot cmdId handler timeoutMillis) = f d
  clearContext (d : Device cfg H) (slot : Fin cfg.maxPendingCommands) :
    f (d.clearContext slot) = f d
  transmit (d : Device cfg H) (start : ℕ) (p : Packet (SerialPacketsData cfg)) (tx : TxAnswers) :
    f (d.transmit start p tx).2 = f d

namespace LeftAlone

variable (h : LeftAlone f)

include h

/-! ## The send paths -/

theorem sendCommand (d : Device cfg H) (endpoint : UInt8) (data : SerialPacketsData cfg)
    (responseHandler : Option H) (timeoutMillis : UInt16) (tx : TxAnswers) :
    f (d.sendCommand endpoint data responseHandler timeoutMillis tx).2 = f d := by
  rw [sendCommand.eq_def]
  split
  · rfl
  split
  · exact h.log d rfl
  split
  · exact h.log d rfl
  split
  · exact h.log d rfl
  · dsimp only
    have htx := (h.transmit d.assignCmdId d.now
      (.command d.assignCmdId.cmdIdCounter endpoint data) tx).trans (h.assignCmdId d)
    generalize d.assignCmdId.transmit d.now
      (.command d.assignCmdId.cmdIdCounter endpoint data) tx = result at htx ⊢
    rcases result with ⟨_ | ⟨size, available⟩ | ⟨written, size⟩, d₁⟩
    · exact (h.log d₁ rfl).trans htx
    · exact (h.log d₁ rfl).trans htx
    · dsimp only
      split
      · exact (h.log d₁ rfl).trans htx
      · exact (h.setUpContext d₁ _ _ _ _).trans htx

theorem sendMessage (d : Device cfg H) (endpoint : UInt8) (data : SerialPacketsData cfg)
    (tx : TxAnswers) : f (d.sendMessage endpoint data tx).2 = f d := by
  rw [sendMessage.eq_def]
  split
  · rfl
  · have htx := h.transmit d d.now (.message endpoint data) tx
    generalize d.transmit d.now (.message endpoint data) tx = result at htx ⊢
    rcases result with ⟨_ | ⟨size, available⟩ | ⟨written, size⟩, d₁⟩
    · exact (h.log d₁ rfl).trans htx
    · exact (h.log d₁ rfl).trans htx
    · dsimp only
      split
      · exact (h.log d₁ rfl).trans htx
      · exact htx

/-! ## Callbacks -/

theorem act (source : Source) (d : Device cfg H) (action : Action cfg H) :
    f (d.act source action) = f d := by
  cases action with
  | sendCommand endpoint data responseHandler timeoutMillis tx =>
    exact h.sendCommand d endpoint data responseHandler timeoutMillis tx
  | sendMessage endpoint data tx => exact h.sendMessage d endpoint data tx
  | readData op =>
    cases source with
    | decoder => exact h.readDecoder d op
    | tmpData => exact h.tmpData d _
  | delay millis => exact h.wait d millis
  | _ => rfl

theorem actOnCommand (s : UInt8 × Device cfg H) (action : Action cfg H) :
    f (Device.actOnCommand s action).2 = f s.2 := by
  cases action with
  | readResponse | writeResponse => exact h.tmpData s.2 _
  | setStatus status => rfl
  | sendCommand endpoint data responseHandler timeoutMillis tx =>
    exact h.sendCommand s.2 endpoint data responseHandler timeoutMillis tx
  | sendMessage endpoint data tx => exact h.sendMessage s.2 endpoint data tx
  | readData op => exact h.readDecoder s.2 op
  | delay millis => exact h.wait s.2 millis

theorem foldl_act (source : Source) (actions : List (Action cfg H)) (d : Device cfg H) :
    f (actions.foldl (Device.act source) d) = f d := by
  induction actions generalizing d with
  | nil => rfl
  | cons action actions ih => exact (ih _).trans (h.act source d action)

theorem foldl_actOnCommand (actions : List (Action cfg H)) (s : UInt8 × Device cfg H) :
    f (actions.foldl Device.actOnCommand s).2 = f s.2 := by
  induction actions generalizing s with
  | nil => rfl
  | cons action actions ih => exact (ih _).trans (h.actOnCommand s action)

variable (react : ℕ → Reaction cfg H)

theorem callResponseHandler (d : Device cfg H) (slot : Fin cfg.maxPendingCommands) (handler : H)
    (cmdId : UInt32) (status : UInt8) (data : List UInt8) (origin : Origin) :
    f (d.callResponseHandler react slot handler cmdId status data origin) = f d :=
  (h.foldl_act _ _ _).trans ((h.emit _ _).trans (h.called d))

theorem processDecodedCommandPacket {d : Device cfg H} (cmdId : UInt32) (endpoint : UInt8)
    (hhandler : d.optionalCommandHandler ≠ none) :
    f (d.processDecodedCommandPacket react cmdId endpoint) = f d := by
  have hstart : f (d.handlerStart cmdId endpoint).2 = f d :=
    (h.emit _ _).trans ((h.tmpData { d with calls := d.calls + 1 } _).trans (h.called d))
  have hbody := (h.foldl_actOnCommand (react d.calls).actions
    (d.handlerStart cmdId endpoint)).trans hstart
  rw [handlerStart] at hbody
  rw [processDecodedCommandPacket.eq_def, if_neg (by simpa using hhandler)]
  dsimp only
  generalize (react d.calls).actions.foldl Device.actOnCommand _ = s at hbody ⊢
  obtain ⟨status, d₁⟩ := s
  dsimp only
  have htx := (h.transmit (d₁.emit (.commandReturn cmdId endpoint
    d.packetDecoder.decodedData.contents status d₁.tmpData.contents)) d.now
      (.response cmdId status d₁.tmpData) (react d.calls).tx).trans ((h.emit _ _).trans hbody)
  generalize Device.transmit _ _ _ _ = result at htx ⊢
  rcases result with ⟨_ | ⟨size, available⟩ | ⟨written, size⟩, d₂⟩
  · exact (h.log d₂ rfl).trans htx
  · exact (h.log d₂ rfl).trans htx
  · dsimp only
    split
    · exact (h.log d₂ rfl).trans htx
    · exact htx

theorem cleanupSlot (d : Device cfg H) (millisNow : UInt32) (slot : Fin cfg.maxPendingCommands) :
    f (d.cleanupSlot react millisNow slot) = f d := by
  rw [cleanupSlot.eq_def]
  dsimp only
  split
  · rfl
  split
  · rfl
  · rw [h.clearContext]
    refine Eq.trans ?_ (h.log d (r := .commandTimeout (d.commandContexts slot).cmdId) rfl)
    cases (d.commandContexts slot).responseHandler with
    | none => exact h.log _ rfl
    | some handler => exact (h.callResponseHandler react _ _ _ _ _ _ _).trans (h.tmpData _ _)

end LeftAlone

end Device

end SerialPackets

import Mathlib.Logic.Relation
import SerialPackets.Client.Sending

/-!
# The moves of a client

Everything a client does is a sequence of *moves*. A move consumes at most one byte of the input. It
is an attempt to send, or the call of a callback together with all the attempts to send that the
callback makes and with what the client does when the callback returns: freeing a context, or
answering a command. Every operation of a program on its client is such a sequence
(`moves_step`, `moves_run`), so that what the moves preserve holds in every run, for all callbacks,
streams and inputs.
-/

namespace SerialPackets

open Framing

variable {cfg : Config} {H : Type*}

namespace Device

/-! ## Moves -/

/-- What a callback can do to its client at a time. -/
inductive Send (d : Device cfg H) : Device cfg H → Prop
  | quiet {d' : Device cfg H} (h : Quiet d d') : Send d d'
  | message {d' : Device cfg H} {endpoint : UInt8} {data : List UInt8} {tx : TxAnswers}
      {x : Transmission} (h : Transmits d d' d.now (.message endpoint data) tx x) : Send d d'
  | command {d' : Device cfg H} {endpoint : UInt8} {data : List UInt8} {tx : TxAnswers}
      {x : Transmission}
      (h : Transmits d.assignCmdId d' d.now
        (.command (nextCmdId d.cmdIdCounter) endpoint data) tx x)
      (hincomplete : ¬x.outcome.IsComplete) : Send d d'
  | acceptedCommand {d' : Device cfg H} {endpoint : UInt8} {data : List UInt8} {tx : TxAnswers}
      {x : Transmission}
      (h : Transmits d.assignCmdId d' d.now
        (.command (nextCmdId d.cmdIdCounter) endpoint data) tx x)
      (hcomplete : x.outcome.IsComplete) {slot : Fin cfg.maxPendingCommands}
      (hfree : (d.commandContexts slot).cmdId = 0) (handler : H) (timeoutMillis : UInt16) :
      Send d (d'.setUpContext slot (nextCmdId d.cmdIdCounter) handler timeoutMillis)

/-- What a callback does to its client. -/
abbrev Sends : Device cfg H → Device cfg H → Prop := Relation.ReflTransGen Send

/-- A byte goes through the decoder. -/
structure Decodes (d : Device cfg H) (b : UInt8) (d' : Device cfg H) : Prop extends Still d d' where
  receiver : d'.packetDecoder.receiver
    = Receiver.next hdlc cfg.maxPacketLen d.packetDecoder.receiver b

/-- One thing that a client does, with the byte it consumes. -/
inductive Move : Device cfg H → List UInt8 → Device cfg H → Prop
  | send {d d' : Device cfg H} (h : Send d d') : Move d [] d'
  | begin {d : Device cfg H} (h : d.begun = false) : Move d [] d.begin
  | byte {d d' : Device cfg H} {b : UInt8} (h : Decodes d b d') : Move d [b] d'
  | command {d d₁ d₂ d' : Device cfg H} {b endpoint status : UInt8} {cmdId : UInt32}
      {data response : List UInt8} {tx : TxAnswers} {x : Transmission} (h : Decodes d b d₁)
      (hreport : d.packetDecoder.reportAt b = some (.command cmdId endpoint data))
      (hbody : Sends (d₁.emit (.commandCall cmdId endpoint data)) d₂)
      (hresponse : Transmits (d₂.emit (.commandReturn cmdId endpoint data status response)) d'
        d₁.now (.response cmdId status response) tx x) : Move d [b] d'
  | message {d d₁ d' : Device cfg H} {b endpoint : UInt8} {data : List UInt8} (h : Decodes d b d₁)
      (hreport : d.packetDecoder.reportAt b = some (.message endpoint data))
      (hbody : Sends (d₁.emit (.messageCall endpoint data)) d') : Move d [b] d'
  | response {d d₁ d₂ : Device cfg H} {b status : UInt8} {cmdId : UInt32} {data : List UInt8}
      {slot : Fin cfg.maxPendingCommands} {handler : H} (h : Decodes d b d₁)
      (hreport : d.packetDecoder.reportAt b = some (.response cmdId status data))
      (hid : (d.commandContexts slot).cmdId = cmdId) (hpending : cmdId ≠ 0)
      (hhandler : (d.commandContexts slot).responseHandler = some handler)
      (hbody : Sends (d₁.emit (.responseCall slot handler cmdId status data .response)) d₂) :
      Move d [b] (d₂.clearContext slot)
  | timeout {d d₂ : Device cfg H} {cmdId : UInt32} {slot : Fin cfg.maxPendingCommands} {handler : H}
      (hid : (d.commandContexts slot).cmdId = cmdId) (hpending : cmdId ≠ 0)
      (hhandler : (d.commandContexts slot).responseHandler = some handler)
      (hbody : Sends (d.emit (.responseCall slot handler cmdId statusTimeout [] .cleanup)) d₂) :
      Move d [] (d₂.clearContext slot)
  -- a context without a handler, which timeouts would clear without a call
  | orphan {d : Device cfg H} {slot : Fin cfg.maxPendingCommands}
      (hpending : (d.commandContexts slot).cmdId ≠ 0)
      (hhandler : (d.commandContexts slot).responseHandler = none) : Move d [] (d.clearContext slot)

/-- What a client does, with the bytes it consumes. -/
abbrev Moves : Device cfg H → List UInt8 → Device cfg H → Prop := Runs.Reaches Move

theorem Quiet.moves {d d' : Device cfg H} (h : Quiet d d') : Moves d [] d' :=
  .single (.send (.quiet h))

/-! ## Callbacks -/

theorem sends_sendMessage (d : Device cfg H) (endpoint : UInt8) (data : SerialPacketsData cfg)
    (tx : TxAnswers) : Sends d (d.sendMessage endpoint data tx).2 := by
  rcases d.sendMessage_cases endpoint data tx with ⟨-, heq⟩ | ⟨-, d₁, x, -, htx, hlogs, -⟩
  · rw [heq]
  · exact .tail (.single (.message htx)) (.quiet hlogs.quiet)

theorem sends_sendCommand (d : Device cfg H) (endpoint : UInt8) (data : SerialPacketsData cfg)
    (responseHandler : Option H) (timeoutMillis : UInt16) (tx : TxAnswers) :
    Sends d (d.sendCommand endpoint data responseHandler timeoutMillis tx).2 := by
  rcases d.sendCommand_cases endpoint data responseHandler timeoutMillis tx with
    ⟨-, -, hlogs⟩ | ⟨-, slot, handler, d₁, x, -, -, hslot, htx, hrest⟩
  · exact .single (.quiet hlogs.quiet)
  · rcases hrest with ⟨hincomplete, -, hlogs⟩ | ⟨hcomplete, hsuccess⟩
    · exact .tail (.single (.command htx hincomplete)) (.quiet hlogs.quiet)
    · rw [hsuccess]
      exact .single (.acceptedCommand htx hcomplete (cmdId_of_findContextWithCmdId hslot) handler
        timeoutMillis)

private theorem quiet_readData (source : Source) (d : Device cfg H)
    (op : SerialPacketsBuffer.ReadOp) :
    Quiet d (d.readData source op) := by
  cases source <;> exact ⟨⟨⟨rfl, rfl, rfl, rfl, rfl, rfl⟩, rfl, rfl, rfl, le_refl _⟩, rfl⟩

theorem sends_act (source : Source) (d : Device cfg H) (action : Action cfg H) :
    Sends d (d.act source action) := by
  cases action with
  | sendCommand endpoint data responseHandler timeoutMillis tx =>
    exact d.sends_sendCommand endpoint data responseHandler timeoutMillis tx
  | sendMessage endpoint data tx => exact d.sends_sendMessage endpoint data tx
  | readData op => exact .single (.quiet (quiet_readData source d op))
  | delay millis => exact .single (.quiet (d.quiet_wait millis))
  | _ => exact .refl

theorem sends_actOnCommand (status : UInt8) (d : Device cfg H) (action : Action cfg H) :
    Sends d (actOnCommand (status, d) action).2 := by
  cases action with
  | readResponse op | writeResponse op =>
    exact .single (.quiet (d.quiet_internal _ _ _ _ (le_refl _)))
  | setStatus status => exact .refl
  | sendCommand endpoint data responseHandler timeoutMillis tx =>
    exact d.sends_sendCommand endpoint data responseHandler timeoutMillis tx
  | sendMessage endpoint data tx => exact d.sends_sendMessage endpoint data tx
  | readData op => exact .single (.quiet (quiet_readData .decoder d op))
  | delay millis => exact .single (.quiet (d.quiet_wait millis))

theorem sends_foldl_act (source : Source) (actions : List (Action cfg H)) (d : Device cfg H) :
    Sends d (actions.foldl (act source) d) := by
  induction actions generalizing d with
  | nil => exact .refl
  | cons action actions ih => exact (sends_act source d action).trans (ih _)

theorem sends_foldl_actOnCommand (actions : List (Action cfg H)) (status : UInt8)
    (d : Device cfg H) : Sends d (actions.foldl actOnCommand (status, d)).2 := by
  induction actions generalizing status d with
  | nil => exact .refl
  | cons action actions ih => exact (sends_actOnCommand status d action).trans (ih _ _)

theorem Sends.moves {d d' : Device cfg H} (h : Sends d d') : Moves d [] d' := by
  induction h with
  | refl => exact .refl d
  | tail _ hsend ih => exact ih.trans_silent (.single (.send hsend))

/-! ## What moves leave alone -/

theorem Send.frame {d d' : Device cfg H} (h : Send d d') :
    d'.ignoreRxForTesting = d.ignoreRxForTesting ∧ d'.begun = d.begun ∧
      d'.packetDecoder.receiver = d.packetDecoder.receiver := by
  cases h with
  | quiet h => exact ⟨h.ignoring, h.begun, h.receiver⟩
  | message h => exact ⟨h.ignoring, h.begun, h.receiver⟩
  | command h _ => exact ⟨h.ignoring, h.begun, h.receiver⟩
  | acceptedCommand h _ _ => exact ⟨h.ignoring, h.begun, h.receiver⟩

theorem Sends.frame {d d' : Device cfg H} (h : Sends d d') :
    d'.ignoreRxForTesting = d.ignoreRxForTesting ∧ d'.begun = d.begun ∧
      d'.packetDecoder.receiver = d.packetDecoder.receiver := by
  induction h with
  | refl => exact ⟨rfl, rfl, rfl⟩
  | tail _ hsend ih =>
    exact ⟨hsend.frame.1.trans ih.1, hsend.frame.2.1.trans ih.2.1, hsend.frame.2.2.trans ih.2.2⟩

theorem Send.now_le {d d' : Device cfg H} (h : Send d d') : d.now ≤ d'.now := by
  cases h with
  | quiet h => exact h.now_le
  | message h => exact h.now_le
  | command h _ => exact h.now_le
  | acceptedCommand h _ _ => exact h.now_le

theorem Sends.now_le {d d' : Device cfg H} (h : Sends d d') : d.now ≤ d'.now := by
  induction h with
  | refl => exact le_refl _
  | tail _ hsend ih => exact ih.trans hsend.now_le

theorem Move.frame {d d' : Device cfg H} {bytes : List UInt8} (h : Move d bytes d') :
    d'.ignoreRxForTesting = d.ignoreRxForTesting ∧
      d'.packetDecoder.receiver
        = Receiver.run hdlc cfg.maxPacketLen d.packetDecoder.receiver bytes := by
  cases h with
  | send h => exact ⟨h.frame.1, h.frame.2.2⟩
  | begin h =>
    rw [begin_of_not_begun h]
    exact ⟨rfl, rfl⟩
  | byte h => exact ⟨h.ignoring, h.receiver⟩
  | command h _ hbody hresponse =>
    exact ⟨hresponse.ignoring.trans (hbody.frame.1.trans h.ignoring),
      hresponse.receiver.trans (hbody.frame.2.2.trans h.receiver)⟩
  | message h _ hbody => exact ⟨hbody.frame.1.trans h.ignoring, hbody.frame.2.2.trans h.receiver⟩
  | response h _ _ _ _ hbody =>
    exact ⟨hbody.frame.1.trans h.ignoring, hbody.frame.2.2.trans h.receiver⟩
  | timeout _ _ _ hbody => exact ⟨hbody.frame.1, hbody.frame.2.2⟩
  | orphan => exact ⟨rfl, rfl⟩

theorem Moves.frame {d d' : Device cfg H} {bytes : List UInt8} (h : Moves d bytes d') :
    d'.ignoreRxForTesting = d.ignoreRxForTesting ∧
      d'.packetDecoder.receiver
        = Receiver.run hdlc cfg.maxPacketLen d.packetDecoder.receiver bytes := by
  induction h with
  | refl => exact ⟨rfl, rfl⟩
  | tail _ hmove ih =>
    exact ⟨hmove.frame.1.trans ih.1, by rw [hmove.frame.2, ih.2, Receiver.run_append]⟩

/-! ## Invariants -/

/-- A callback is called or returns. -/
inductive IsCall : Event cfg H → Prop
  | commandCall (cmdId : UInt32) (endpoint : UInt8) (data : List UInt8) :
      IsCall (.commandCall cmdId endpoint data)
  | commandReturn (cmdId : UInt32) (endpoint : UInt8) (data : List UInt8) (status : UInt8)
      (response : List UInt8) : IsCall (.commandReturn cmdId endpoint data status response)
  | messageCall (endpoint : UInt8) (data : List UInt8) : IsCall (.messageCall endpoint data)
  | response (slot : Fin cfg.maxPendingCommands) (handler : H) (cmdId : UInt32) (status : UInt8)
      (data : List UInt8) : IsCall (.responseCall slot handler cmdId status data .response)
  | timeout (slot : Fin cfg.maxPendingCommands) (handler : H) (cmdId : UInt32) :
      IsCall (.responseCall slot handler cmdId statusTimeout [] .cleanup)

/-- What an invariant of a client has to withstand. -/
structure Kept (P : Device cfg H → Prop) : Prop where
  send : ∀ {d d' : Device cfg H}, Send d d' → P d → P d'
  still : ∀ {d d' : Device cfg H}, Still d d' → P d → P d'
  begin : ∀ {d : Device cfg H}, d.begun = false → P d → P d.begin
  call : ∀ {d : Device cfg H} {e : Event cfg H}, IsCall e → P d → P (d.emit e)
  /-- The attempt to answer a command, by a function that started before the handler was called. -/
  respond : ∀ {d d' : Device cfg H} {start : ℕ} {cmdId : UInt32} {status : UInt8}
    {data : List UInt8} {tx : TxAnswers} {x : Transmission}, start ≤ d.now →
    Transmits d d' start (.response cmdId status data) tx x → P d → P d'
  clear : ∀ {d : Device cfg H} (slot : Fin cfg.maxPendingCommands), P d → P (d.clearContext slot)

namespace Kept

variable {P : Device cfg H → Prop} (hP : Kept P) {d d' : Device cfg H} {bytes : List UInt8}

include hP

theorem sends (h : Sends d d') (hd : P d) : P d' := by
  induction h with
  | refl => exact hd
  | tail _ hsend ih => exact hP.send hsend ih

theorem move (h : Move d bytes d') (hd : P d) : P d' := by
  cases h with
  | send h => exact hP.send h hd
  | begin h => exact hP.begin h hd
  | byte h => exact hP.still h.toStill hd
  | command h _ hbody hresponse =>
    have hreturn := hP.sends hbody (hP.call (.commandCall _ _ _) (hP.still h.toStill hd))
    refine hP.respond ?_ hresponse (hP.call (.commandReturn _ _ _ _ _) hreturn)
    exact hbody.now_le
  | message h _ hbody =>
    exact hP.sends hbody (hP.call (.messageCall _ _) (hP.still h.toStill hd))
  | response h _ _ _ _ hbody =>
    have hreturn := hP.sends hbody (hP.call (.response _ _ _ _ _) (hP.still h.toStill hd))
    exact hP.clear _ hreturn
  | timeout _ _ _ hbody => exact hP.clear _ (hP.sends hbody (hP.call (.timeout _ _ _) hd))
  | orphan => exact hP.clear _ hd

/-- **Invariants.** What withstands everything a client does holds after all of its moves. -/
theorem moves (h : Moves d bytes d') (hd : P d) : P d' := h.invariant hP.move hd

end Kept

/-! ## Receiving -/

variable (react : ℕ → Reaction cfg H)

theorem decodes_decoded (d : Device cfg H) (b : UInt8) : Decodes d b (d.decoded b) :=
  ⟨⟨⟨rfl, rfl, rfl, rfl, rfl, rfl⟩, rfl, rfl, rfl, le_refl _⟩,
    (d.packetDecoder.decodeNextByte_spec b).1⟩

private theorem Decodes.called {d d₁ : Device cfg H} {b : UInt8} (h : Decodes d b d₁)
    (tmpData : SerialPacketsData cfg) (calls : ℕ) :
    Decodes d b { d₁ with tmpData := tmpData, calls := calls } :=
  ⟨⟨⟨h.ignoring, h.commandHandler, h.messageHandler, h.begun, h.counter, h.contexts⟩, h.timer,
    h.sent, h.trace, h.now_le⟩, h.receiver⟩

theorem moves_callResponseHandler (slot : Fin cfg.maxPendingCommands) (handler : H)
    (cmdId : UInt32) (status : UInt8) (data : List UInt8) (origin : Origin) (d : Device cfg H) :
    Sends ({ d with calls := d.calls + 1 }.emit
      (.responseCall slot handler cmdId status data origin))
      (d.callResponseHandler react slot handler cmdId status data origin) :=
  sends_foldl_act _ _ _

/-- The status and the state in which the command handler is called. -/
def handlerStart (d : Device cfg H) (cmdId : UInt32) (endpoint : UInt8) : UInt8 × Device cfg H :=
  (statusOk, { d with tmpData := d.tmpData.clear, calls := d.calls + 1 }.emit
    (.commandCall cmdId endpoint d.packetDecoder.decodedData.contents))

/-- After the command handler has returned, one attempt is made to answer, and then there may be
something left to log. -/
theorem processDecodedCommandPacket_spec {d : Device cfg H} (cmdId : UInt32) (endpoint : UInt8)
    (hhandler : d.optionalCommandHandler ≠ none) {s : UInt8 × Device cfg H}
    (hs : (react d.calls).actions.foldl actOnCommand (d.handlerStart cmdId endpoint) = s) :
    Logs ((s.2.emit (.commandReturn cmdId endpoint d.packetDecoder.decodedData.contents s.1
        s.2.tmpData.contents)).transmit d.now (.response cmdId s.1 s.2.tmpData)
        (react d.calls).tx).2
      (d.processDecodedCommandPacket react cmdId endpoint) := by
  rw [handlerStart] at hs
  rw [processDecodedCommandPacket, if_neg (by simpa using hhandler)]
  dsimp only
  rw [hs]
  obtain ⟨status, d₁⟩ := s
  dsimp only
  generalize transmit _ _ _ _ = result
  rcases result with ⟨_ | ⟨size, available⟩ | ⟨written, size⟩, d₂⟩
  · exact .report id
  · exact .report id
  · dsimp only
    split
    · exact .report id
    · exact .nothing

section Packets

variable {d d₁ : Device cfg H} {b : UInt8} (h : Decodes d b d₁)

include h

private theorem moves_processDecodedCommandPacket {cmdId : UInt32} {endpoint : UInt8}
    (hreport : d.packetDecoder.reportAt b
      = some (.command cmdId endpoint d₁.packetDecoder.decodedData.contents)) :
    Moves d [b] (d₁.processDecodedCommandPacket react cmdId endpoint) := by
  by_cases hhandler : d₁.optionalCommandHandler = none
  · rw [processDecodedCommandPacket, if_pos (by rw [hhandler]; rfl)]
    exact (Runs.Reaches.single (.byte h)).trans_silent (quiet_log _ _).moves
  · have hbody := sends_foldl_actOnCommand (react d₁.calls).actions statusOk
      (d₁.handlerStart cmdId endpoint).2
    have hlogs := processDecodedCommandPacket_spec react cmdId endpoint hhandler rfl
    obtain ⟨x, htx, -⟩ := transmit_spec _ d₁.now _ (react d₁.calls).tx
    exact (Runs.Reaches.single (Move.command (h.called _ _) hreport hbody htx)).trans_silent
      hlogs.quiet.moves

private theorem moves_processDecodedResponsePacket {cmdId : UInt32} {status : UInt8}
    (hreport : d.packetDecoder.reportAt b
      = some (.response cmdId status d₁.packetDecoder.decodedData.contents)) :
    Moves d [b] (d₁.processDecodedResponsePacket react cmdId status) := by
  have hbyte : Moves d [b] d₁ := .single (.byte h)
  rw [processDecodedResponsePacket]
  split
  · exact hbyte.trans_silent (quiet_log _ _).moves
  · rename_i hpending
    cases hslot : d₁.findContextWithCmdId cmdId with
    | none => exact hbyte.trans_silent (quiet_log _ _).moves
    | some slot =>
      have hid := cmdId_of_findContextWithCmdId hslot
      rw [h.contexts] at hid
      dsimp only
      cases hhandler : (d₁.commandContexts slot).responseHandler with
      | none => exact hbyte.trans_silent (quiet_log _ _).moves
      | some handler =>
        rw [h.contexts] at hhandler
        exact .single (.response (h.called d₁.tmpData (d₁.calls + 1)) hreport hid hpending hhandler
          (moves_callResponseHandler react slot handler cmdId status _ .response d₁))

private theorem moves_processDecodedMessagePacket {endpoint : UInt8}
    (hreport : d.packetDecoder.reportAt b
      = some (.message endpoint d₁.packetDecoder.decodedData.contents)) :
    Moves d [b] (d₁.processDecodedMessagePacket react endpoint) := by
  rw [processDecodedMessagePacket]
  split
  · exact (Runs.Reaches.single (.byte h)).trans_silent (quiet_log _ _).moves
  · exact .single (.message (h.called d₁.tmpData (d₁.calls + 1)) hreport (sends_foldl_act _ _ _))

end Packets

/-- **One byte of input is one move**, after which there may be something left to log. -/
theorem moves_decodeByte (d : Device cfg H) (b : UInt8) : Moves d [b] (d.decodeByte react b) := by
  have hdecodes := d.decodes_decoded b
  rw [decodeByte]
  split
  · rename_i hnew
    have hreport : d.packetDecoder.reportAt b = some (d.decoded b).packetDecoder.packet :=
      if_pos hnew
    rw [SerialPacketsDecoder.packet] at hreport
    cases hmeta : (d.decoded b).packetDecoder.decodedMetadata with
    | command cmdId endpoint =>
      rw [hmeta] at hreport
      exact moves_processDecodedCommandPacket react hdecodes hreport
    | response cmdId status =>
      rw [hmeta] at hreport
      exact moves_processDecodedResponsePacket react hdecodes hreport
    | message endpoint =>
      rw [hmeta] at hreport
      exact moves_processDecodedMessagePacket react hdecodes hreport
  · exact .single (.byte hdecodes)

theorem moves_foldl_decodeByte (bytes : List UInt8) (d : Device cfg H) :
    Moves d bytes (bytes.foldl (decodeByte react) d) := by
  induction bytes generalizing d with
  | nil => exact .refl d
  | cons b bytes ih => exact (moves_decodeByte react d b).trans (ih _)

/-- The bytes that `loop_rx` passes to the decoder. -/
def bytesRead : ℕ → List ReadAnswer → List UInt8
  | 0, _ => []
  | _ + 1, [] => []
  | n + 1, answer :: answers =>
    let bytes := answer.bytes.take (min rxTransferBufferLen (n + 1))
    bytes ++ bytesRead (n + 1 - bytes.length) answers

theorem quiet_afterRead (d : Device cfg H) (waitMillis count got : ℕ) :
    Quiet d (d.afterRead waitMillis count got) := by
  rw [afterRead]
  split
  · exact d.quiet_internal _ _ _ _ (Nat.le_add_right _ _)
  · exact quiet_wait _ _

private theorem moves_loopRx? {d d' : Device cfg H} {n : ℕ} {answers : List ReadAnswer}
    (hignore : d.ignoreRxForTesting = false) (h : loopRx? react d n answers = some d') :
    Moves d (bytesRead n answers) d' := by
  induction answers generalizing d n with
  | nil =>
    cases n with
    | zero =>
      rw [loopRx?, Option.some_inj] at h
      exact h ▸ .refl d
    | succ n => exact absurd h (Option.some_ne_none _).symm
  | cons answer answers ih =>
    cases n with
    | zero =>
      rw [loopRx?, Option.some_inj] at h
      exact h ▸ .refl d
    | succ n =>
      rw [loopRx?] at h
      rw [bytesRead]
      generalize answer.bytes.take (min rxTransferBufferLen (n + 1)) = bytes at h ⊢
      have hquiet := d.quiet_afterRead answer.waitMillis (min rxTransferBufferLen (n + 1))
        bytes.length
      generalize d.afterRead answer.waitMillis (min rxTransferBufferLen (n + 1)) bytes.length = d₀
        at h hquiet
      rw [if_neg (by rw [hquiet.ignoring, hignore]; exact Bool.false_ne_true)] at h
      have hbytes := moves_foldl_decodeByte react bytes d₀
      have hignore' : (bytes.foldl (decodeByte react) d₀).ignoreRxForTesting = false := by
        rw [hbytes.frame.1, hquiet.ignoring, hignore]
      exact (hquiet.moves.trans hbytes).trans (ih hignore' h)

private theorem exists_moves_loopRx? {d d' : Device cfg H} {n : ℕ} {answers : List ReadAnswer}
    (h : loopRx? react d n answers = some d') : ∃ bytes, Moves d bytes d' := by
  cases hignore : d.ignoreRxForTesting with
  | false => exact ⟨_, moves_loopRx? react hignore h⟩
  | true =>
    refine ⟨[], ?_⟩
    match n, answers with
    | 0, _ =>
      rw [loopRx?, Option.some_inj] at h
      exact h ▸ .refl d
    | n + 1, answer :: answers =>
      rw [loopRx?] at h
      have hquiet := d.quiet_afterRead answer.waitMillis (min rxTransferBufferLen (n + 1))
        (answer.bytes.take (min rxTransferBufferLen (n + 1))).length
      rw [if_pos (by rw [hquiet.ignoring, hignore]), Option.some_inj] at h
      exact h ▸ hquiet.moves

/-! ## Timeouts -/

theorem moves_cleanupSlot (millisNow : UInt32) (d : Device cfg H)
    (slot : Fin cfg.maxPendingCommands) : Moves d [] (d.cleanupSlot react millisNow slot) := by
  rw [cleanupSlot]
  split
  · exact .refl d
  · rename_i hpending
    split
    · exact .refl d
    · dsimp only
      cases hhandler : (d.commandContexts slot).responseHandler with
      | none =>
        have hlog : Quiet d ((d.log (.commandTimeout (d.commandContexts slot).cmdId)).log
            (.timeoutWithoutHandler (d.commandContexts slot).cmdId)) :=
          d.quiet_internal _ _ _ _ (le_refl _)
        exact hlog.moves.trans_silent (.single (.orphan hpending hhandler))
      | some handler =>
        have hcalled : Quiet d
            { d.log (.commandTimeout (d.commandContexts slot).cmdId) with
              tmpData := d.tmpData.clear, calls := d.calls + 1 } :=
          d.quiet_internal _ _ _ _ (le_refl _)
        exact hcalled.moves.trans_silent (.single (.timeout rfl hpending hhandler
          (moves_callResponseHandler react slot handler _ statusTimeout [] .cleanup
            { d.log (.commandTimeout (d.commandContexts slot).cmdId) with
              tmpData := d.tmpData.clear })))

theorem moves_sweep (d : Device cfg H) (millisNow : UInt32) :
    Moves d [] (d.sweep react millisNow) := by
  rw [sweep]
  induction List.finRange cfg.maxPendingCommands generalizing d with
  | nil => exact .refl d
  | cons slot slots ih => exact (moves_cleanupSlot react millisNow d slot).trans_silent (ih _)

theorem moves_loopCleanup (d : Device cfg H) (resetMillis sweepMillis : ℕ) :
    Moves d [] (d.loopCleanup react resetMillis sweepMillis) := by
  rw [loopCleanup]
  split
  · exact .refl d
  · refine Runs.Reaches.trans_silent (Quiet.moves ?_) (moves_sweep react _ _)
    exact d.quiet_internal _ _ _ _ ((Nat.le_add_right _ _).trans (Nat.le_add_right _ _))

/-! ## Operations and runs -/

theorem moves_loop {d d' : Device cfg H} {input : LoopInput} (hbegun : d.begun = true)
    (hignore : d.ignoreRxForTesting = false) (h : d.loop react input = some d') :
    Moves d (bytesRead (input.available % 2 ^ 16).toNat input.reads) d' := by
  rw [loop_of_begun react hbegun, Option.map_eq_some_iff] at h
  obtain ⟨d₁, hrx, rfl⟩ := h
  exact (moves_loopRx? react hignore hrx).trans_silent (moves_loopCleanup react _ _ _)

theorem moves_begin (d : Device cfg H) : Moves d [] d.begin := by
  cases hbegun : d.begun with
  | false => exact .single (.begin hbegun)
  | true =>
    rw [Device.begin, if_pos hbegun]
    exact (quiet_log _ _).moves

/-- **Every operation is a sequence of moves.** -/
theorem moves_step {d d' : Device cfg H} {op : Op cfg H} (h : step react d op = some d') :
    ∃ bytes, Moves d bytes d' := by
  cases op with
  | begin => exact ⟨[], Option.some_inj.mp h ▸ d.moves_begin⟩
  | sendCommand endpoint data responseHandler timeoutMillis tx =>
    exact ⟨[], Option.some_inj.mp h ▸
      (d.sends_sendCommand endpoint data responseHandler timeoutMillis tx).moves⟩
  | sendMessage endpoint data tx =>
    exact ⟨[], Option.some_inj.mp h ▸ (d.sends_sendMessage endpoint data tx).moves⟩
  | delay millis => exact ⟨[], Option.some_inj.mp h ▸ (d.quiet_wait millis).moves⟩
  | loop input =>
    change d.loop react input = some d' at h
    rw [loop] at h
    split at h
    · exact ⟨[], Option.some_inj.mp h ▸ .refl d⟩
    · obtain ⟨d₁, hrx, rfl⟩ := Option.map_eq_some_iff.mp h
      obtain ⟨bytes, hmoves⟩ := exists_moves_loopRx? react hrx
      exact ⟨bytes, hmoves.trans_silent (moves_loopCleanup react _ _ _)⟩

/-- **Every run is a sequence of moves.** -/
theorem moves_run {d d' : Device cfg H} {ops : List (Op cfg H)}
    (h : Runs.run (step react) d ops = some d') : ∃ bytes, Moves d bytes d' := by
  refine Runs.related_of_run (R := fun d d' : Device cfg H ↦ ∃ bytes, Moves d bytes d')
    (fun d ↦ ⟨[], .refl d⟩) ?_ (fun op _ a b hstep ↦ ?_) h
  · rintro a b c ⟨bytes₁, h₁⟩ ⟨bytes₂, h₂⟩
    exact ⟨_, h₁.trans h₂⟩
  · exact moves_step react hstep

end Device

end SerialPackets

import SerialPackets.Lib.Runs
import SerialPackets.Model.Decoder
import SerialPackets.Model.Encoder
import SerialPackets.Model.Timer

/-!
# The client

`SerialPacketsClient` with what it is connected to: a clock, a stream that may refuse, cut or delay
what is written to it, and callbacks. A callback is an arbitrary program of the user; what one call
of it does is given as the list of things it does to the client (`Action`), among them sending
commands and messages, chosen anew for every call. Callbacks do not call `loop`.

A `Device` is a client with its surroundings: the true time, the bytes the stream has accepted, the
reports, and the history of what could be observed (`Event`). The history is not part of the program
and no function of the program reads it.

Each of the three send paths of the sources has its own copy of the code from `check_pre_flag` to
`write`. The copies agree and are `transmit` here; what the paths make of its outcome is in
`sendCommand`, `sendMessage` and `processDecodedCommandPacket`.
-/

namespace SerialPackets

/-! ## State -/

/-- `CommandContext`. The entry is free when the id is zero. -/
structure CommandContext (H : Type*) where
  cmdId : UInt32
  responseHandler : Option H
  expirationTimeMillis : UInt32

/-- `clear`. -/
def CommandContext.clear {H : Type*} : CommandContext H := ⟨0, none, 0⟩

/-- `SerialPacketsClient`, over a type of callbacks. The data stream is either set or not. -/
structure SerialPacketsClient (cfg : Config) (H : Type*) where
  ignoreRxForTesting : Bool
  optionalCommandHandler : Option H
  optionalMessageHandler : Option H
  begun : Bool
  tmpData : SerialPacketsData cfg
  tmpStuffedPacket : StuffedPacketBuffer cfg
  packetEncoder : SerialPacketsEncoder cfg
  packetDecoder : SerialPacketsDecoder cfg
  cmdIdCounter : UInt32
  preFlagTimer : SerialPacketsTimer
  cleanupTimer : SerialPacketsTimer
  commandContexts : Fin cfg.maxPendingCommands → CommandContext H

/-- How an attempt to send a packet ends. -/
inductive TxOutcome
  | encodeFailed
  | noRoom (size : ℕ) (available : ℤ)
  | wrote (written size : ℕ)
  deriving DecidableEq

/-- An attempt to send a packet: when the sending call started, when it read the pre-flag timer and
when it reset it, what the timer asked for, how it ended, the bytes the stream accepted, and when it
was over. -/
structure Transmission where
  packet : Packet (List UInt8)
  start : ℕ
  checked : ℕ
  reset : ℕ
  preFlag : Bool
  outcome : TxOutcome
  bytes : List UInt8
  finish : ℕ

/-- What a response handler is called for. -/
inductive Origin
  | response
  | cleanup
  deriving DecidableEq

/-- What can be observed of a device. -/
inductive Event (cfg : Config) (H : Type*)
  | begun (time : ℕ)
  | idAssigned (cmdId : UInt32)
  | transmitted (x : Transmission)
  -- `sendCommand` has returned `true`
  | accepted (slot : Fin cfg.maxPendingCommands) (cmdId : UInt32) (handler : H)
  | responseCall (slot : Fin cfg.maxPendingCommands) (handler : H) (cmdId : UInt32)
      (status : UInt8) (data : List UInt8) (origin : Origin)
  -- a context has been cleared
  | released (slot : Fin cfg.maxPendingCommands)
  | commandCall (cmdId : UInt32) (endpoint : UInt8) (data : List UInt8)
  | commandReturn (cmdId : UInt32) (endpoint : UInt8) (data : List UInt8) (status : UInt8)
      (response : List UInt8)
  | messageCall (endpoint : UInt8) (data : List UInt8)

/-- A client with its surroundings. -/
structure Device (cfg : Config) (H : Type*) extends SerialPacketsClient cfg H where
  now : ℕ
  /-- The number of callbacks called so far. -/
  calls : ℕ
  sent : List UInt8
  reports : List Report
  trace : List (Event cfg H)

/-- How the clock and the stream answer one attempt to send: the time `flush` takes, the time
between the two readings of the clock in `check_pre_flag`, the room in the stream, the number of
bytes `write` accepts if it is offered as many, and the time that takes. -/
structure TxAnswers where
  flushMillis : ℕ
  resetMillis : ℕ
  availableForWrite : ℤ
  written : ℕ
  writeMillis : ℕ

/-- What a callback does. The response buffer and the status exist for command handlers only. -/
inductive Action (cfg : Config) (H : Type*)
  | sendCommand (endpoint : UInt8) (data : SerialPacketsData cfg) (responseHandler : Option H)
      (timeoutMillis : UInt16) (tx : TxAnswers)
  | sendMessage (endpoint : UInt8) (data : SerialPacketsData cfg) (tx : TxAnswers)
  | readData (op : SerialPacketsBuffer.ReadOp)
  | readResponse (op : SerialPacketsBuffer.ReadOp)
  | writeResponse (op : SerialPacketsBuffer.WriteOp)
  | setStatus (status : UInt8)
  | delay (millis : ℕ)

/-- One call of a callback: what it does, and how the stream answers the response that follows a
command handler. -/
structure Reaction (cfg : Config) (H : Type*) where
  actions : List (Action cfg H)
  tx : TxAnswers

/-- One answer of `readBytes`, after some time. -/
structure ReadAnswer where
  waitMillis : ℕ
  bytes : List UInt8

/-- The surroundings of one call of `loop`: what `available` returns, the answers of `readBytes`,
and the time that passes in `loop_cleanup` before the timer is reset and before the clock is read
for the sweep. -/
structure LoopInput where
  available : ℤ
  reads : List ReadAnswer
  resetMillis : ℕ
  sweepMillis : ℕ

/-- The size of `rx_transfer_buffer`. -/
def rxTransferBufferLen : ℕ := 100

namespace Device

variable {cfg : Config} {H : Type*}

def wait (d : Device cfg H) (millis : ℕ) : Device cfg H := { d with now := d.now + millis }

def log (d : Device cfg H) (r : Report) : Device cfg H := { d with reports := d.reports ++ [r] }

def emit (d : Device cfg H) (e : Event cfg H) : Device cfg H := { d with trace := d.trace ++ [e] }

/-! ## Private helpers of the client -/

/-- `assign_cmd_id`, the counter after it. -/
def nextCmdId (counter : UInt32) : UInt32 :=
  if counter + 1 = 0 then counter + 1 + 1 else counter + 1

/-- `assign_cmd_id`. The id is the new value of the counter. -/
def assignCmdId (d : Device cfg H) : Device cfg H :=
  { d with
    cmdIdCounter := nextCmdId d.cmdIdCounter
    trace := d.trace ++ [.idAssigned (nextCmdId d.cmdIdCounter)] }

/-- `find_context_with_cmd_id`. -/
def findContextWithCmdId (d : Device cfg H) (cmdId : UInt32) :
    Option (Fin cfg.maxPendingCommands) :=
  (List.finRange cfg.maxPendingCommands).find? fun slot ↦ (d.commandContexts slot).cmdId = cmdId

/-- `num_pending_commands`. -/
def numPendingCommands (d : Device cfg H) : ℕ :=
  (List.finRange cfg.maxPendingCommands).countP fun slot ↦ (d.commandContexts slot).cmdId ≠ 0

/-- `clear` on the context of a slot. -/
def clearContext (d : Device cfg H) (slot : Fin cfg.maxPendingCommands) : Device cfg H :=
  { d with
    commandContexts := Function.update d.commandContexts slot .clear
    trace := d.trace ++ [.released slot] }

@[simp] theorem commandContexts_clearContext (d : Device cfg H)
    (slot : Fin cfg.maxPendingCommands) :
    (d.clearContext slot).commandContexts = Function.update d.commandContexts slot .clear := rfl

/-- `force_next_pre_flag`. -/
def forceNextPreFlag (d : Device cfg H) : Device cfg H :=
  { d with preFlagTimer := .set d.now (UInt32.ofNat (preFlagTimeoutMillis + 1)) }

/-- What `check_pre_flag` returns when it reads the clock at a time. -/
def preFlagDue (d : Device cfg H) (time : ℕ) : Bool :=
  decide ((d.preFlagTimer.elapsedMillis time).toNat > preFlagTimeoutMillis)

/-- `check_pre_flag`, the state after it. -/
def checkPreFlag (d : Device cfg H) (tx : TxAnswers) : Device cfg H :=
  let d := (d.wait tx.flushMillis).wait tx.resetMillis
  { d with preFlagTimer := .reset d.now }

/-- `begin`. -/
def begin (d : Device cfg H) : Device cfg H :=
  if d.begun then d.log .alreadyBegun
  else ({ d with begun := true }.forceNextPreFlag).emit (.begun d.now)

theorem begin_of_not_begun {d : Device cfg H} (h : d.begun = false) :
    d.begin = ({ d with begun := true }.forceNextPreFlag).emit (.begun d.now) := by
  rw [begin, if_neg (by rw [h]; exact Bool.false_ne_true)]

/-! ## Sending -/

/-- The checks between encoding and writing. -/
def txOutcome (r : EncodeResult cfg) (tx : TxAnswers) : TxOutcome :=
  if r.ok = false then .encodeFailed
  else if tx.availableForWrite < r.out.size then .noRoom r.out.size tx.availableForWrite
  else .wrote (min tx.written r.out.size) r.out.size

/-- From `check_pre_flag` to `write`, for a call that started at `start`. The flag is decided, and
its timer reset, before anything can fail. -/
def transmit (d : Device cfg H) (start : ℕ) (p : Packet (SerialPacketsData cfg)) (tx : TxAnswers) :
    TxOutcome × Device cfg H :=
  let insertPreFlag := d.preFlagDue (d.now + tx.flushMillis)
  let checked := d.checkPreFlag tx
  let r := checked.packetEncoder.encodePacket p insertPreFlag checked.tmpStuffedPacket
  let encoded :=
    { checked with
      packetEncoder := r.encoder
      tmpStuffedPacket := r.out
      reports := checked.reports ++ r.report.toList }
  let attempt : Transmission :=
    { packet := p.map SerialPacketsBuffer.contents
      start := start
      checked := d.now + tx.flushMillis
      reset := checked.now
      preFlag := insertPreFlag
      outcome := txOutcome r tx
      bytes := []
      finish := checked.now }
  match txOutcome r tx with
  | .wrote written size =>
    let bytes := r.out.contents.take written
    let wrote := { encoded.wait tx.writeMillis with sent := encoded.sent ++ bytes }
    let forced := if written < size then wrote.forceNextPreFlag else wrote
    (.wrote written size, forced.emit (.transmitted { attempt with bytes, finish := wrote.now }))
  | outcome => (outcome, encoded.emit (.transmitted attempt))

/-- What `sendCommand` returns, with the id it stores. -/
structure SendResult where
  ok : Bool
  cmdId : UInt32

/-- The failure result. -/
def SendResult.failed : SendResult := ⟨false, 0⟩

/-- Setting up the context of a command that was sent. -/
def setUpContext (d : Device cfg H) (slot : Fin cfg.maxPendingCommands) (cmdId : UInt32)
    (handler : H) (timeoutMillis : UInt16) : Device cfg H :=
  let context : CommandContext H := ⟨cmdId, some handler, millis d.now + timeoutMillis.toUInt32⟩
  { d with
    commandContexts := Function.update d.commandContexts slot context
    trace := d.trace ++ [.accepted slot cmdId handler] }

@[simp] theorem commandContexts_setUpContext (d : Device cfg H)
    (slot : Fin cfg.maxPendingCommands) (cmdId : UInt32) (handler : H) (timeoutMillis : UInt16) :
    (d.setUpContext slot cmdId handler timeoutMillis).commandContexts
      = Function.update d.commandContexts slot
          ⟨cmdId, some handler, millis d.now + timeoutMillis.toUInt32⟩ := rfl

/-- `sendCommand`. -/
def sendCommand (d : Device cfg H) (endpoint : UInt8) (data : SerialPacketsData cfg)
    (responseHandler : Option H) (timeoutMillis : UInt16) (tx : TxAnswers) :
    SendResult × Device cfg H :=
  if d.begun = false then (.failed, d)
  else match responseHandler with
  | none => (.failed, d.log .commandWithoutHandler)
  | some handler =>
    if timeoutMillis > maxCmdTimeoutMillis then (.failed, d.log (.invalidTimeout timeoutMillis))
    else match d.findContextWithCmdId 0 with
    | none => (.failed, d.log .tooManyCommands)
    | some slot =>
      let assigned := d.assignCmdId
      let newCmdId := assigned.cmdIdCounter
      match assigned.transmit d.now (.command newCmdId endpoint data) tx with
      | (.encodeFailed, d) => (.failed, d.log .failedCommand)
      | (.noRoom size available, d) => (.failed, d.log (.noRoomForCommand size available))
      | (.wrote written size, d) =>
        if written < size then (.failed, d.log (.shortCommand written size))
        else (⟨true, newCmdId⟩, d.setUpContext slot newCmdId handler timeoutMillis)

/-- `sendMessage`. A short write is logged, and the result is `true` all the same. -/
def sendMessage (d : Device cfg H) (endpoint : UInt8) (data : SerialPacketsData cfg)
    (tx : TxAnswers) : Bool × Device cfg H :=
  if d.begun = false then (false, d)
  else match d.transmit d.now (.message endpoint data) tx with
  | (.encodeFailed, d) => (false, d.log (.failedMessage data.size))
  | (.noRoom size available, d) => (false, d.log (.noRoomForMessage size available))
  | (.wrote written size, d) =>
    (true, if written < size then d.log (.shortMessage written size) else d)

/-! ## Callbacks -/

/-- Where the data live that a callback was given. -/
inductive Source
  | decoder
  | tmpData

/-- Reading moves the cursor of the data the callback was given. -/
def readData (source : Source) (d : Device cfg H) (op : SerialPacketsBuffer.ReadOp) :
    Device cfg H :=
  match source with
  | .decoder => { d with packetDecoder := d.packetDecoder.applyRead op }
  | .tmpData => { d with tmpData := d.tmpData.applyRead op }

/-- One action of a response or message handler. -/
def act (source : Source) (d : Device cfg H) : Action cfg H → Device cfg H
  | .sendCommand endpoint data responseHandler timeoutMillis tx =>
    (d.sendCommand endpoint data responseHandler timeoutMillis tx).2
  | .sendMessage endpoint data tx => (d.sendMessage endpoint data tx).2
  | .readData op => d.readData source op
  | .delay millis => d.wait millis
  | .readResponse _ | .writeResponse _ | .setStatus _ => d

/-- One action of a command handler, which also has a status and a response buffer to fill. -/
def actOnCommand : UInt8 × Device cfg H → Action cfg H → UInt8 × Device cfg H
  | (status, d), .readResponse op => (status, { d with tmpData := d.tmpData.applyRead op })
  | (status, d), .writeResponse op => (status, { d with tmpData := d.tmpData.applyWrite op })
  | (_, d), .setStatus status => (status, d)
  | (status, d), action => (status, d.act .decoder action)

variable (react : ℕ → Reaction cfg H)

/-- The call of a response handler. -/
def callResponseHandler (d : Device cfg H) (slot : Fin cfg.maxPendingCommands) (handler : H)
    (cmdId : UInt32) (status : UInt8) (data : List UInt8) (origin : Origin) : Device cfg H :=
  let called := { d with calls := d.calls + 1 }.emit
    (.responseCall slot handler cmdId status data origin)
  let source := match origin with
    | .response => Source.decoder
    | .cleanup => Source.tmpData
  (react d.calls).actions.foldl (act source) called

/-! ## Receiving -/

/-- `process_decoded_command_packet`. -/
def processDecodedCommandPacket (d : Device cfg H) (cmdId : UInt32) (endpoint : UInt8) :
    Device cfg H :=
  if d.optionalCommandHandler.isNone then d.log .noCommandHandler
  else
    let data := d.packetDecoder.decodedData.contents
    let called := { d with tmpData := d.tmpData.clear, calls := d.calls + 1 }.emit
      (.commandCall cmdId endpoint data)
    let (status, d') := (react d.calls).actions.foldl actOnCommand (statusOk, called)
    let returned := d'.emit (.commandReturn cmdId endpoint data status d'.tmpData.contents)
    match returned.transmit d.now (.response cmdId status d'.tmpData) (react d.calls).tx with
    | (.encodeFailed, d) => d.log .failedResponse
    | (.noRoom size _, d) => d.log (.noRoomForResponse size)
    | (.wrote written size, d) =>
      if written < size then d.log (.shortResponse written size) else d

/-- `process_decoded_response_packet`. -/
def processDecodedResponsePacket (d : Device cfg H) (cmdId : UInt32) (status : UInt8) :
    Device cfg H :=
  if cmdId = 0 then d.log .responseWithoutId
  else match d.findContextWithCmdId cmdId with
  | none => d.log (.noPendingCommand cmdId)
  | some slot =>
    match (d.commandContexts slot).responseHandler with
    | none => d.log .responseWithoutHandler
    | some handler =>
      (d.callResponseHandler react slot handler cmdId status d.packetDecoder.decodedData.contents
        .response).clearContext slot

/-- `process_decoded_message_packet`. -/
def processDecodedMessagePacket (d : Device cfg H) (endpoint : UInt8) : Device cfg H :=
  if d.optionalMessageHandler.isNone then d.log .noMessageHandler
  else
    let called := { d with calls := d.calls + 1 }.emit
      (.messageCall endpoint d.packetDecoder.decodedData.contents)
    (react d.calls).actions.foldl (act .decoder) called

/-- Passing a byte to the decoder. -/
def decoded (d : Device cfg H) (b : UInt8) : Device cfg H :=
  let r := d.packetDecoder.decodeNextByte b
  { d with packetDecoder := r.decoder, reports := d.reports ++ r.report.toList }

/-- The body of the inner loop of `loop_rx`. -/
def decodeByte (d : Device cfg H) (b : UInt8) : Device cfg H :=
  let hasNewPacket := (d.packetDecoder.decodeNextByte b).hasNewPacket
  let d := d.decoded b
  if hasNewPacket then
    match d.packetDecoder.decodedMetadata with
    | .command cmdId endpoint => d.processDecodedCommandPacket react cmdId endpoint
    | .response cmdId status => d.processDecodedResponsePacket react cmdId status
    | .message endpoint => d.processDecodedMessagePacket react endpoint
  else d

/-- After `readBytes` was asked for `count` bytes and returned `got`. -/
def afterRead (d : Device cfg H) (waitMillis count got : ℕ) : Device cfg H :=
  let d := d.wait waitMillis
  if got ≠ count then d.log (.shortRead count got) else d

/-- `loop_rx` from the point where `n` bytes are left to read, undefined while it waits for answers
of `readBytes`. -/
def loopRx? : Device cfg H → ℕ → List ReadAnswer → Option (Device cfg H)
  | d, 0, _ => some d
  | _, _ + 1, [] => none
  | d, n + 1, answer :: answers =>
    let count := min rxTransferBufferLen (n + 1)
    let bytes := answer.bytes.take count
    let d := d.afterRead answer.waitMillis count bytes.length
    if d.ignoreRxForTesting then some d
    else loopRx? (bytes.foldl (decodeByte react) d) (n + 1 - bytes.length) answers

/-! ## Timeouts -/

/-- The body of the loop of `loop_cleanup`. -/
def cleanupSlot (millisNow : UInt32) (d : Device cfg H) (slot : Fin cfg.maxPendingCommands) :
    Device cfg H :=
  let p := d.commandContexts slot
  if p.cmdId = 0 then d
  else if (p.expirationTimeMillis - millisNow).toBitVec.toInt > 0 then d
  else
    let d := d.log (.commandTimeout p.cmdId)
    let d := match p.responseHandler with
      | none => d.log (.timeoutWithoutHandler p.cmdId)
      | some handler =>
        { d with tmpData := d.tmpData.clear }.callResponseHandler react slot handler p.cmdId
          statusTimeout d.tmpData.clear.contents .cleanup
    d.clearContext slot

/-- The loop of `loop_cleanup`. -/
def sweep (d : Device cfg H) (millisNow : UInt32) : Device cfg H :=
  (List.finRange cfg.maxPendingCommands).foldl (cleanupSlot react millisNow) d

/-- `loop_cleanup`. -/
def loopCleanup (d : Device cfg H) (resetMillis sweepMillis : ℕ) : Device cfg H :=
  if (d.cleanupTimer.elapsedMillis d.now).toNat < 2 then d
  else
    let d := d.wait resetMillis
    let d := { d with cleanupTimer := .reset d.now }.wait sweepMillis
    d.sweep react (millis d.now)

/-- `loop`. The number of available bytes is taken as a `uint16_t`. -/
def loop (d : Device cfg H) (input : LoopInput) : Option (Device cfg H) :=
  if d.begun = false then some d
  else (loopRx? react d (input.available % 2 ^ 16).toNat input.reads).map fun d ↦
    d.loopCleanup react input.resetMillis input.sweepMillis

theorem loop_of_begun {d : Device cfg H} (h : d.begun = true) (input : LoopInput) :
    d.loop react input
      = (loopRx? react d (input.available % 2 ^ 16).toNat input.reads).map fun d ↦
          d.loopCleanup react input.resetMillis input.sweepMillis := by
  rw [loop, if_neg (by rw [h]; exact Bool.false_ne_true.symm)]

/-! ## Runs -/

/-- What the program does with its client, and the passing of time. -/
inductive Op (cfg : Config) (H : Type*)
  | begin
  | sendCommand (endpoint : UInt8) (data : SerialPacketsData cfg) (responseHandler : Option H)
      (timeoutMillis : UInt16) (tx : TxAnswers)
  | sendMessage (endpoint : UInt8) (data : SerialPacketsData cfg) (tx : TxAnswers)
  | loop (input : LoopInput)
  | delay (millis : ℕ)

/-- One operation, undefined if it does not come back. -/
def step (d : Device cfg H) : Op cfg H → Option (Device cfg H)
  | .begin => some d.begin
  | .sendCommand endpoint data responseHandler timeoutMillis tx =>
    some (d.sendCommand endpoint data responseHandler timeoutMillis tx).2
  | .sendMessage endpoint data tx => some (d.sendMessage endpoint data tx).2
  | .loop input => d.loop react input
  | .delay millis => some (d.wait millis)

/-- A client as its constructor leaves it in zeroed memory. -/
def create (commandHandler messageHandler : Option H) (now : ℕ) : Device cfg H where
  ignoreRxForTesting := false
  optionalCommandHandler := commandHandler
  optionalMessageHandler := messageHandler
  begun := false
  tmpData := .fresh (Vector.replicate _ 0)
  tmpStuffedPacket := .fresh (Vector.replicate _ 0)
  packetEncoder := ⟨.fresh (Vector.replicate _ 0)⟩
  packetDecoder := .fresh (Vector.replicate _ 0) (.command 0 0) (Vector.replicate _ 0)
  cmdIdCounter := 0
  preFlagTimer := .reset now
  cleanupTimer := .reset now
  commandContexts _ := .clear
  now := now
  calls := 0
  sent := []
  reports := []
  trace := []

/-- A device that has just been constructed, at some time, over whatever the memory holds. -/
structure IsFresh (d : Device cfg H) : Prop where
  notIgnoring : d.ignoreRxForTesting = false
  notBegun : d.begun = false
  counter : d.cmdIdCounter = 0
  contexts : ∀ slot, d.commandContexts slot = .clear
  waiting : d.packetDecoder.receiver = Framing.Receiver.dropped
  sent : d.sent = []
  trace : d.trace = []

theorem isFresh_create (commandHandler messageHandler : Option H) (now : ℕ) :
    IsFresh (create commandHandler messageHandler now : Device cfg H) :=
  ⟨rfl, rfl, rfl, fun _ ↦ rfl, SerialPacketsDecoder.receiver_fresh _ _ _, rfl, rfl⟩

end Device

end SerialPackets

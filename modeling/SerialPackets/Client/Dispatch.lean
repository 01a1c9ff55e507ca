import SerialPackets.Client.Calls
import SerialPackets.Client.Receiving
import SerialPackets.Codec.Packets

/-!
# Dispatch

What a client does is followed more closely here than by its moves: each byte consumed is known to
go through `decodeByte`, and each slot cleaned up to be compared with a reading of the clock
(`Stride`). The command and message handlers are then called for exactly the packets that the
decoder reports and that they are installed for, in order and once each (`requests_of_run`). So what
they are called for is a matter of the bytes received alone: how the bytes were cut into reads, what
was sent meanwhile, by callbacks or otherwise, and how the clock and the stream behaved make no
difference.
-/

namespace SerialPackets

open Framing

variable {cfg : Config} {H : Type*}

/-- The command or message that a handler is called for. -/
def Event.request? : Event cfg H → Option (Packet (List UInt8))
  | .commandCall cmdId endpoint data => some (.command cmdId endpoint data)
  | .messageCall endpoint data => some (.message endpoint data)
  | _ => none

private theorem Event.ignoresSends_request : IgnoresSends (request? : Event cfg H → _) :=
  ignoresSends_of (fun _ ↦ rfl) (fun _ _ ↦ rfl) fun _ _ _ ↦ rfl

namespace Device

/-! ## What the moves leave alone -/

section Kept

variable {d d' : Device cfg H} {bytes : List UInt8}

/-- A handler is installed for the packet. -/
def handles (d : Device cfg H) : Packet (List UInt8) → Bool
  | .command _ _ _ => d.optionalCommandHandler.isSome
  | .message _ _ => d.optionalMessageHandler.isSome
  | .response _ _ _ => false

private theorem handles_eq (hcommand : d'.optionalCommandHandler = d.optionalCommandHandler)
    (hmessage : d'.optionalMessageHandler = d.optionalMessageHandler) :
    d'.handles = d.handles := by
  funext p
  cases p with
  | command _ _ _ => exact congrArg Option.isSome hcommand
  | message _ _ => exact congrArg Option.isSome hmessage
  | response _ _ _ => rfl

theorem Frame.handles (h : Frame d d') : d'.handles = d.handles :=
  handles_eq h.commandHandler h.messageHandler

theorem Send.handles (h : Send d d') : d'.handles = d.handles := by
  cases h with
  | quiet h => exact h.toFrame.handles
  | message h => exact h.toFrame.handles
  | command h _ => exact h.toFrame.handles
  | acceptedCommand h _ _ handler timeoutMillis =>
    exact (handles_eq rfl rfl).trans h.toFrame.handles

theorem kept_handles (f : Packet (List UInt8) → Bool) :
    Kept fun d : Device cfg H ↦ d.handles = f where
  send h hd := h.handles.trans hd
  still h hd := h.toFrame.handles.trans hd
  begin h hd := by
    rw [begin_of_not_begun h]
    exact hd
  call _ hd := hd
  respond _ h hd := h.toFrame.handles.trans hd
  clear _ hd := hd

theorem Moves.handles (h : Moves d bytes d') : d'.handles = d.handles :=
  (kept_handles _).moves h rfl

theorem kept_begun : Kept fun d : Device cfg H ↦ d.begun = true where
  send h hd := h.frame.2.1.trans hd
  still h hd := h.begun.trans hd
  begin h _ := by rw [begin_of_not_begun h]; rfl
  call _ hd := hd
  respond _ h hd := h.begun.trans hd
  clear _ hd := hd

theorem kept_since (since : ℕ) : Kept fun d : Device cfg H ↦ since ≤ d.now where
  send h hd := hd.trans h.now_le
  still h hd := hd.trans h.now_le
  begin h hd := by
    rw [begin_of_not_begun h]
    exact hd
  call _ hd := hd
  respond _ h hd := hd.trans h.now_le
  clear _ hd := hd

theorem Moves.now_le (h : Moves d bytes d') : d.now ≤ d'.now := (kept_since _).moves h (le_refl _)

end Kept

/-! ## Strides -/

variable (react : ℕ → Reaction cfg H)

/-- One thing that a client does, with the byte it consumes. -/
inductive Stride : Device cfg H → List UInt8 → Device cfg H → Prop
  | sends {d d' : Device cfg H} (h : Sends d d') : Stride d [] d'
  | begin (d : Device cfg H) : Stride d [] d.begin
  | byte (d : Device cfg H) (b : UInt8) : Stride d [b] (d.decodeByte react b)
  | cleanup (d : Device cfg H) (millisNow : UInt32) (slot : Fin cfg.maxPendingCommands) :
      Stride d [] (d.cleanupSlot react millisNow slot)

/-- What a client does, with the bytes it consumes. -/
abbrev Strides : Device cfg H → List UInt8 → Device cfg H → Prop :=
  Runs.Reaches (Stride react)

variable {react}

theorem Stride.moves {d d' : Device cfg H} {bytes : List UInt8}
    (h : Stride react d bytes d') : Moves d bytes d' := by
  cases h with
  | sends h => exact h.moves
  | begin => exact d.moves_begin
  | byte b => exact moves_decodeByte react d b
  | cleanup millisNow slot => exact moves_cleanupSlot react millisNow d slot

theorem Strides.moves {d d' : Device cfg H} {bytes : List UInt8}
    (h : Strides react d bytes d') : Moves d bytes d' := by
  induction h with
  | refl => exact .refl d
  | tail _ hstride ih => exact ih.trans hstride.moves

theorem Quiet.strides {d d' : Device cfg H} (h : Quiet d d') : Strides react d [] d' :=
  .single (.sends (.single (.quiet h)))

theorem strides_of_passes {d d' : Device cfg H} {bytes : List UInt8}
    (h : Passes react d bytes d') : Strides react d bytes d' := by
  induction h with
  | refl => exact .refl _
  | tail _ hstep ih =>
    cases hstep with
    | read waitMillis count got => exact ih.trans (quiet_afterRead _ _ _ _).strides
    | byte b => exact ih.trans (.single (.byte _ b))

theorem strides_loopRx? {d d' : Device cfg H} {n : ℕ} {answers : List ReadAnswer}
    (h : loopRx? react d n answers = some d') :
    Strides react d (if d.ignoreRxForTesting then [] else bytesRead n answers) d' :=
  strides_of_passes (reads_loopRx? react h)

theorem strides_foldl_cleanupSlot (millisNow : UInt32)
    (slots : List (Fin cfg.maxPendingCommands)) (d : Device cfg H) :
    Strides react d [] (slots.foldl (cleanupSlot react millisNow) d) := by
  induction slots generalizing d with
  | nil => exact .refl d
  | cons slot slots ih =>
    have hslot : Strides react d [] (d.cleanupSlot react millisNow slot) :=
      .single (.cleanup d millisNow slot)
    exact hslot.trans_silent (ih _)

theorem strides_loopCleanup (d : Device cfg H) (resetMillis sweepMillis : ℕ) :
    Strides react d [] (d.loopCleanup react resetMillis sweepMillis) := by
  rw [loopCleanup]
  split
  · exact .refl d
  · have hquiet : Quiet d
        ({ d.wait resetMillis with cleanupTimer := .reset (d.wait resetMillis).now }.wait
          sweepMillis) :=
      d.quiet_internal _ _ _ _ ((Nat.le_add_right _ _).trans (Nat.le_add_right _ _))
    exact hquiet.strides.trans_silent (strides_foldl_cleanupSlot _ _ _)

/-! ## Operations and runs -/

/-- The bytes that an operation passes to the decoder. -/
def Op.bytes (ignoring begun : Bool) : Op cfg H → List UInt8
  | .loop input =>
    if !begun || ignoring then []
    else bytesRead (input.available % 2 ^ 16).toNat input.reads
  | .begin | .sendCommand .. | .sendMessage .. | .delay _ => []

def Op.isBegin : Op cfg H → Bool
  | .begin => true
  | .sendCommand .. | .sendMessage .. | .delay _ | .loop _ => false

/-- The bytes that a list of operations passes to the decoder. -/
def received (ignoring : Bool) : Bool → List (Op cfg H) → List UInt8
  | _, [] => []
  | begun, op :: ops => op.bytes ignoring begun ++ received ignoring (begun || op.isBegin) ops

private theorem received_ignoring (begun : Bool) (ops : List (Op cfg H)) :
    received true begun ops = [] := by
  induction ops generalizing begun with
  | nil => rfl
  | cons op ops ih =>
    rw [received, ih, List.append_nil]
    cases op with
    | loop input => exact if_pos (Bool.or_true _)
    | _ => rfl

variable {d d' : Device cfg H}

theorem begun_step {op : Op cfg H} (h : step react d op = some d') :
    d'.begun = (d.begun || op.isBegin) := by
  cases op with
  | begin =>
    rw [← Option.some_inj.mp h, Op.isBegin, Bool.or_true]
    by_cases hbegun : d.begun = true
    · rw [Device.begin, if_pos hbegun]
      exact hbegun
    · rw [begin_of_not_begun (Bool.not_eq_true _ ▸ hbegun)]
      rfl
  | sendCommand endpoint data responseHandler timeoutMillis tx =>
    rw [← Option.some_inj.mp h, Op.isBegin, Bool.or_false]
    exact (d.sends_sendCommand endpoint data responseHandler timeoutMillis tx).frame.2.1
  | sendMessage endpoint data tx =>
    rw [← Option.some_inj.mp h, Op.isBegin, Bool.or_false]
    exact (d.sends_sendMessage endpoint data tx).frame.2.1
  | delay millis =>
    rw [← Option.some_inj.mp h, Op.isBegin, Bool.or_false]
    rfl
  | loop input =>
    rw [Op.isBegin, Bool.or_false]
    by_cases hbegun : d.begun = true
    · obtain ⟨bytes, hmoves⟩ := moves_step react h
      rw [kept_begun.moves hmoves hbegun, hbegun]
    · rw [step, loop, if_pos (Bool.not_eq_true _ ▸ hbegun), Option.some_inj] at h
      rw [h]

/-- **Every operation is a sequence of strides**, over the bytes that it passes on. -/
theorem strides_step {op : Op cfg H} (h : step react d op = some d') :
    Strides react d (op.bytes d.ignoreRxForTesting d.begun) d' := by
  cases op with
  | begin => exact Option.some_inj.mp h ▸ .single (.begin d)
  | sendCommand endpoint data responseHandler timeoutMillis tx =>
    exact Option.some_inj.mp h ▸
      .single (.sends (d.sends_sendCommand endpoint data responseHandler timeoutMillis tx))
  | sendMessage endpoint data tx =>
    exact Option.some_inj.mp h ▸ .single (.sends (d.sends_sendMessage endpoint data tx))
  | delay millis => exact Option.some_inj.mp h ▸ (d.quiet_wait millis).strides
  | loop input =>
    change d.loop react input = some d' at h
    rw [Op.bytes]
    cases hbegun : d.begun with
    | true =>
      rw [loop_of_begun react hbegun, Option.map_eq_some_iff] at h
      obtain ⟨d₁, hrx, rfl⟩ := h
      have hread : Strides react d (if d.ignoreRxForTesting then [] else
        bytesRead (input.available % 2 ^ 16).toNat input.reads) d₁ := strides_loopRx? hrx
      exact hread.trans_silent (strides_loopCleanup d₁ _ _)
    | false =>
      rw [loop, if_pos hbegun, Option.some_inj] at h
      exact h ▸ .refl d

/-- **Every run is a sequence of strides**, over the bytes that it passes on. -/
theorem strides_run {ops : List (Op cfg H)} (h : Runs.run (step react) d ops = some d') :
    Strides react d (received d.ignoreRxForTesting d.begun ops) d' := by
  induction ops generalizing d with
  | nil =>
    rw [Runs.run_nil, Option.some_inj] at h
    exact h ▸ .refl d
  | cons op ops ih =>
    obtain ⟨m, hm, hrest⟩ := Runs.run_cons_eq_some.mp h
    have hstep := strides_step hm
    have hmoves := Strides.moves hstep
    have hops := ih hrest
    rw [(Moves.frame hmoves).1, begun_step hm] at hops
    exact hstep.trans hops

/-! ## What the handlers are called for -/

theorem decodeByte_of_reportAt_none {b : UInt8} (h : d.packetDecoder.reportAt b = none) :
    d.decodeByte react b = d.decoded b := by
  rw [SerialPacketsDecoder.reportAt] at h
  rw [decodeByte]
  split at h
  · exact absurd h (Option.some_ne_none _)
  · rename_i hnew
    exact if_neg hnew

/-- The switch of `loop_rx` over the type of a packet whose payload is in the decoder's data. -/
def process (react : ℕ → Reaction cfg H) (d : Device cfg H) :
    Packet (List UInt8) → Device cfg H
  | .command cmdId endpoint _ => d.processDecodedCommandPacket react cmdId endpoint
  | .response cmdId status _ => d.processDecodedResponsePacket react cmdId status
  | .message endpoint _ => d.processDecodedMessagePacket react endpoint

theorem decodeByte_of_reportAt (react : ℕ → Reaction cfg H) {b : UInt8} {p : Packet (List UInt8)}
    (h : d.packetDecoder.reportAt b = some p) :
    (d.decoded b).packetDecoder.decodedData.contents = p.data ∧
      d.decodeByte react b = (d.decoded b).process react p := by
  have hdecoder : (d.packetDecoder.decodeNextByte b).decoder = (d.decoded b).packetDecoder := rfl
  rw [SerialPacketsDecoder.reportAt] at h
  split at h
  · rename_i hnew
    rw [hdecoder, SerialPacketsDecoder.packet, Option.some_inj] at h
    subst h
    rw [decodeByte, if_pos hnew, DecodedPacketMetadata.data_packet]
    refine ⟨rfl, ?_⟩
    cases (d.decoded b).packetDecoder.decodedMetadata <;> rfl
  · exact absurd h (Option.some_ne_none _).symm

private theorem requests_callResponseHandler (slot : Fin cfg.maxPendingCommands) (handler : H)
    (cmdId : UInt32) (status : UInt8) (data : List UInt8) (origin : Origin) :
    (d.callResponseHandler react slot handler cmdId status data origin).history Event.request?
      = d.history Event.request? := by
  rw [(moves_callResponseHandler react slot handler cmdId status data origin d).history
    Event.ignoresSends_request, history_emit]
  exact List.append_nil _

/-- **Processing a packet** calls the command or message handler for it, once, if there is one. -/
theorem requests_process (d : Device cfg H) {p : Packet (List UInt8)}
    (hdata : d.packetDecoder.decodedData.contents = p.data) :
    (d.process react p).history Event.request?
      = d.history Event.request? ++ [p].filter d.handles := by
  cases p with
  | command cmdId endpoint data =>
    rw [process]
    cases hhandler : d.optionalCommandHandler with
    | none =>
      rw [processDecodedCommandPacket, if_pos (by rw [hhandler]; rfl),
        List.filter_cons_of_neg (by rw [handles, hhandler]; exact Bool.false_ne_true)]
      exact (List.append_nil _).symm
    | some handler =>
      have hbody : Sends (d.handlerStart cmdId endpoint).2
          ((react d.calls).actions.foldl actOnCommand (d.handlerStart cmdId endpoint)).2 :=
        sends_foldl_actOnCommand (react d.calls).actions statusOk _
      have hlogs := processDecodedCommandPacket_spec react cmdId endpoint
        (hhandler ▸ Option.some_ne_none handler) rfl
      obtain ⟨x, htx, -⟩ := transmit_spec _ d.now _ (react d.calls).tx
      rw [hlogs.quiet.toStill.history, htx.history, history_emit,
        hbody.history Event.ignoresSends_request, handlerStart, history_emit, hdata,
        List.filter_cons_of_pos (by rw [handles, hhandler]; rfl)]
      exact (List.append_nil _).trans (List.append_nil _)
  | response cmdId status data =>
    rw [process, processDecodedResponsePacket,
      List.filter_cons_of_neg (by exact Bool.false_ne_true), List.filter_nil, List.append_nil]
    split
    · rfl
    · cases d.findContextWithCmdId cmdId with
      | none => rfl
      | some slot =>
        dsimp only
        cases (d.commandContexts slot).responseHandler with
        | none => rfl
        | some handler =>
          rw [history_clearContext, requests_callResponseHandler]
          exact List.append_nil _
  | message endpoint data =>
    rw [process, processDecodedMessagePacket]
    cases hhandler : d.optionalMessageHandler with
    | none =>
      rw [if_pos Option.isNone_none,
        List.filter_cons_of_neg (by rw [handles, hhandler]; exact Bool.false_ne_true)]
      exact (List.append_nil _).symm
    | some handler =>
      rw [if_neg (by rw [Option.isNone_some]; exact Bool.false_ne_true),
        (sends_foldl_act _ _ _).history Event.ignoresSends_request, history_emit, hdata,
        List.filter_cons_of_pos (by rw [handles, hhandler]; rfl)]
      rfl

private theorem requests_decodeByte (d : Device cfg H) (b : UInt8) :
    (d.decodeByte react b).history Event.request? = d.history Event.request?
      ++ (decodedPackets cfg d.packetDecoder.receiver [b]).filter d.handles := by
  have hstill := (d.decodes_decoded b).toStill
  rw [decodedPackets_singleton, ← SerialPacketsDecoder.reportAt_eq]
  cases hreport : d.packetDecoder.reportAt b with
  | none =>
    rw [decodeByte_of_reportAt_none hreport, hstill.history]
    exact (List.append_nil _).symm
  | some p =>
    obtain ⟨hdata, hprocess⟩ := decodeByte_of_reportAt react hreport
    rw [hprocess, requests_process _ hdata, hstill.history, hstill.toFrame.handles]
    rfl

private theorem requests_cleanupSlot (d : Device cfg H) (millisNow : UInt32)
    (slot : Fin cfg.maxPendingCommands) :
    (d.cleanupSlot react millisNow slot).history Event.request? = d.history Event.request? := by
  rw [cleanupSlot]
  split
  · rfl
  · split
    · rfl
    · dsimp only
      rw [history_clearContext]
      refine (List.append_nil _).trans ?_
      cases (d.commandContexts slot).responseHandler with
      | none => rfl
      | some handler =>
        dsimp only
        rw [requests_callResponseHandler]
        rfl

private theorem Stride.requests {bytes : List UInt8} (h : Stride react d bytes d') :
    d'.history Event.request? = d.history Event.request?
      ++ (decodedPackets cfg d.packetDecoder.receiver bytes).filter d.handles := by
  cases h with
  | sends h =>
    rw [h.history Event.ignoresSends_request]
    exact (List.append_nil _).symm
  | begin =>
    rw [Device.begin]
    split
    · exact (List.append_nil _).symm
    · rw [history_emit]
      rfl
  | byte b => exact requests_decodeByte d b
  | cleanup _ slot =>
    rw [requests_cleanupSlot]
    exact (List.append_nil _).symm

/-- **The handlers are called for the packets that the bytes contain**, as far as they are
installed. -/
theorem Strides.requests {bytes : List UInt8} (h : Strides react d bytes d') :
    d'.history Event.request? = d.history Event.request?
      ++ (decodedPackets cfg d.packetDecoder.receiver bytes).filter d.handles := by
  induction h with
  | refl => exact (List.append_nil _).symm
  | tail hrun hstride ih =>
    have hmoves := Strides.moves hrun
    rw [hstride.requests, ih, (Moves.frame hmoves).2, Moves.handles hmoves, decodedPackets_append,
      List.filter_append, List.append_assoc]

theorem IsFresh.requests {ops : List (Op cfg H)} {d₀ : Device cfg H} (hfresh : IsFresh d₀)
    (hrun : Runs.run (step react) d₀ ops = some d) :
    d.history Event.request?
      = (decodedPackets cfg .dropped (received false false ops)).filter d₀.handles := by
  have hstrides : Strides react d₀ _ d := strides_run hrun
  rw [hfresh.notIgnoring, hfresh.notBegun] at hstrides
  rw [Strides.requests hstrides, hfresh.waiting, history, hfresh.trace]
  rfl

/-- **Dispatch is a function of the bytes.** In every run of a client, the command and message
handlers have been called for exactly the packets in the bytes that the run has passed to the
decoder, as far as the handlers are installed: in order, each once, with the fields and the payload
it has on the wire. Only a message frame with more payload bytes than a `SerialPacketsData` holds is
shown without data. -/
theorem requests_of_run (react : ℕ → Reaction cfg H) (ops : List (Op cfg H)) {d₀ : Device cfg H}
    (hfresh : IsFresh d₀) (hrun : Runs.run (step react) d₀ ops = some d) :
    d.history Event.request?
      = (decodedPackets cfg .dropped (received false false ops)).filter d₀.handles :=
  hfresh.requests hrun

/-- A message and a command, received in two parts while a command is being sent. -/
theorem requests_of_run_twoPackets :
    let bytes := wires [(true, .message 1 [packetFlag]), (false, .command 5 2 [])]
    let ops : List (Op Config.default Unit) :=
      [.begin, .loop ⟨5, [⟨0, bytes.take 5⟩], 0, 0⟩,
        .sendCommand 0 noBytes (some ()) 1000 ⟨0, 0, 100, 100, 0⟩,
        .loop ⟨(bytes.drop 5).length, [⟨0, bytes.drop 5⟩], 0, 0⟩]
    ∃ d, Runs.run (step idle) (create (some ()) (some ()) 0) ops = some d ∧
      d.history Event.request? = [.message 1 [packetFlag], .command 5 2 []] := by
  intro bytes ops
  have hsome : (Runs.run (step idle) (create (some ()) (some ()) 0) ops).isSome := by
    decide +kernel
  have hrun := (Option.some_get hsome).symm
  refine ⟨_, hrun, ?_⟩
  rw [requests_of_run idle ops (isFresh_create (some ()) (some ()) 0) hrun]
  decide +kernel

/-! ## The testing hook -/

/-- **The testing hook cuts a client off.** With `ignoreRxForTesting` set, whatever is done and
whatever arrives, no byte reaches the decoder and no handler is called for a packet; commands end by
their timeouts alone. -/
theorem ignoring_of_run (react : ℕ → Reaction cfg H) (ops : List (Op cfg H)) {d₀ : Device cfg H}
    (hignore : d₀.ignoreRxForTesting = true) (hrun : Runs.run (step react) d₀ ops = some d) :
    d.ignoreRxForTesting = true ∧
      d.packetDecoder.receiver = d₀.packetDecoder.receiver ∧
        d.history Event.incoming? = d₀.history Event.incoming? := by
  have hstrides : Strides react d₀ _ d := strides_run hrun
  rw [hignore, received_ignoring] at hstrides
  have hmoves := Strides.moves hstrides
  obtain ⟨hignoring, hreceiver⟩ := Moves.frame hmoves
  obtain ⟨handled, hhandled, hsub⟩ := Moves.exists_incoming hmoves fun body hbody ↦
    absurd hbody List.not_mem_nil
  obtain rfl : handled = [] := List.map_eq_nil_iff.mp (List.sublist_nil.mp hsub)
  exact ⟨hignoring.trans hignore, hreceiver, hhandled.trans (List.append_nil _)⟩

/-- A response that arrives while the hook is on. -/
theorem ignoring_of_run_response :
    let bytes := wires [(true, .response 1 0 [])]
    let d₀ : Device Config.default Unit :=
      { create none none 0 with ignoreRxForTesting := true }
    ∃ d, Runs.run (step idle) d₀
        [.begin, .sendCommand 0 noBytes (some ()) 1000 ⟨0, 0, 100, 100, 0⟩,
          .loop ⟨bytes.length, [⟨0, bytes⟩], 0, 0⟩] = some d ∧
      d.history Event.incoming? = [] := by
  intro bytes d₀
  let ops : List (Op Config.default Unit) :=
    [.begin, .sendCommand 0 noBytes (some ()) 1000 ⟨0, 0, 100, 100, 0⟩,
      .loop ⟨bytes.length, [⟨0, bytes⟩], 0, 0⟩]
  have hsome : (Runs.run (step idle) d₀ ops).isSome := by decide +kernel
  have hrun := (Option.some_get hsome).symm
  exact ⟨_, hrun, (ignoring_of_run idle ops rfl hrun).2.2⟩

end Device

end SerialPackets

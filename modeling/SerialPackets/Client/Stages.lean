import SerialPackets.Client.CommandHandler

/-!
# The states a client goes through

From outside, a run of a client is a sequence of operations. Inside there are more states: those
between the bytes that `loop_rx` decodes, between the slots that `loop_cleanup` deals with, and
between the actions of a callback. A `Stage` leads from one of them to another, and `Visits` follows
any number of stages in any order. A run visits its states in one order (`visits_run`), so what
holds in all states visited holds at all times.

The first thing that does is that a context has a handler exactly if it is not free. The two
branches for contexts without a handler are never taken, and never reported (`Visits.tidy`).
-/

namespace SerialPackets

variable {cfg : Config} {H : Type*}

/-! ## The reports of encoder and decoder -/

private theorem not_isNullHandler_of_byteStuffing (inp : EncodedPacketBuffer cfg)
    (insertPreFlag : Bool) (out : StuffedPacketBuffer cfg) :
    ∀ r ∈ (byteStuffing inp insertPreFlag out).report.toList, ¬r.IsNullHandler := by
  obtain ⟨o₁, -, hrest⟩ := Option.bind_eq_some_iff.mp (byteStuffing?_eq inp insertPreFlag out)
  obtain ⟨o₂, -, hrest⟩ := Option.bind_eq_some_iff.mp hrest
  obtain ⟨o₃, -, hrest⟩ := Option.bind_eq_some_iff.mp hrest
  generalize byteStuffing inp insertPreFlag out = result at hrest ⊢
  rcases o₃ with c | ⟨check, c⟩
  · dsimp only at hrest
    split at hrest
    · rw [← Option.some_inj.mp hrest]
      exact fun _ hr ↦ absurd hr List.not_mem_nil
    · exact absurd hrest.symm (Option.some_ne_none result)
  · rw [← Option.some_inj.mp hrest]
    exact List.forall_mem_singleton.mpr id

private theorem SerialPacketsEncoder.not_isNullHandler_of_encodePacket
    (e : SerialPacketsEncoder cfg)
    (p : Packet (SerialPacketsData cfg)) (insertPreFlag : Bool) (out : StuffedPacketBuffer cfg) :
    ∀ r ∈ (e.encodePacket p insertPreFlag out).report.toList, ¬r.IsNullHandler := by
  obtain ⟨tmpData, -, heq⟩ := e.encodePacket_eq p insertPreFlag out
  rw [heq]
  exact not_isNullHandler_of_byteStuffing tmpData insertPreFlag out

private theorem not_isNullHandler_of_processPacket? {load : ℕ → Option UInt8} {packetLen : ℕ}
    {r : Report} (h : processPacket? load packetLen = some (.error r)) : ¬r.IsNullHandler := by
  have hwithCmdId {tooShort : Report} {metadata : UInt32 → UInt8 → DecodedPacketMetadata}
      (htooShort : ¬tooShort.IsNullHandler)
      (h : decodeWithCmdId? load packetLen tooShort metadata = some (.error r)) :
      ¬r.IsNullHandler := by
    rw [decodeWithCmdId?] at h
    split at h
    · rwa [← ProcessOutcome.error.inj (Option.some_inj.mp h)]
    · simp [Option.bind_eq_some_iff] at h
  rw [processPacket?] at h
  split at h
  · simp at h
  · split at h
    · rw [← ProcessOutcome.error.inj (Option.some_inj.mp h)]
      exact id
    · simp only [Option.bind_eq_bind, Option.bind_eq_some_iff] at h
      obtain ⟨crcIndex, -, packetCrc, -, covered, -, h⟩ := h
      split at h
      · rw [← ProcessOutcome.error.inj (Option.some_inj.mp h)]
        exact id
      · rw [decodeByType?] at h
        simp only [Option.bind_eq_bind, Option.bind_eq_some_iff] at h
        obtain ⟨packetType, -, h⟩ := h
        split at h
        · exact hwithCmdId id h
        · split at h
          · exact hwithCmdId id h
          · split at h
            · split at h
              · rw [← ProcessOutcome.error.inj (Option.some_inj.mp h)]
                exact id
              · simp [Option.bind_eq_some_iff] at h
            · rw [← ProcessOutcome.error.inj (Option.some_inj.mp h)]
              exact id

private theorem DecoderState.not_isNullHandler_of_decodeNextByte? {d : DecoderState cfg} {b : UInt8}
    {result : DecodeResult (DecoderState cfg)} (h : d.decodeNextByte? b = some result) :
    ∀ r ∈ result.report.toList, ¬r.IsNullHandler := by
  have hnone : ∀ r ∈ (none : Option Report).toList, ¬r.IsNullHandler :=
    fun _ hr ↦ absurd hr List.not_mem_nil
  rw [decodeNextByte?] at h
  split at h
  · rw [← Option.some_inj.mp h]
    exact hnone
  · split at h
    · obtain ⟨processed, hprocessed, rfl⟩ := Option.map_eq_some_iff.mp h
      obtain ⟨_ | report | ⟨metadata, payload⟩, ho, rfl⟩ := Option.map_eq_some_iff.mp hprocessed
      · exact hnone
      · exact List.forall_mem_singleton.mpr (not_isNullHandler_of_processPacket? ho)
      · exact hnone
    · split at h
      · rw [← Option.some_inj.mp h]
        exact List.forall_mem_singleton.mpr id
      · split at h
        · dsimp only at h
          split at h
          · rw [← Option.some_inj.mp h]
            exact List.forall_mem_singleton.mpr id
          · obtain ⟨d', -, rfl⟩ := Option.map_eq_some_iff.mp h
            exact hnone
        · split at h
          · rw [← Option.some_inj.mp h]
            exact hnone
          · obtain ⟨d', -, rfl⟩ := Option.map_eq_some_iff.mp h
            exact hnone

private theorem SerialPacketsDecoder.not_isNullHandler_of_decodeNextByte
    (d : SerialPacketsDecoder cfg) (b : UInt8) :
    ∀ r ∈ (d.decodeNextByte b).report.toList, ¬r.IsNullHandler :=
  DecoderState.not_isNullHandler_of_decodeNextByte?
    (Option.some_get (d.decodeNextByte?_isSome b)).symm

namespace Device

/-! ## Stages -/

variable (react : ℕ → Reaction cfg H)

/-- From one state that a client goes through to another. -/
inductive Stage : Device cfg H → Device cfg H → Prop
  | begin (d : Device cfg H) : Stage d d.begin
  /-- What a program or a response or message handler does. -/
  | act (d : Device cfg H) (source : Source) (action : Action cfg H) : Stage d (d.act source action)
  /-- What a command handler does. -/
  | actOnCommand (d : Device cfg H) (status : UInt8) (action : Action cfg H) :
      Stage d (Device.actOnCommand (status, d) action).2
  | afterRead (d : Device cfg H) (waitMillis count got : ℕ) :
      Stage d (d.afterRead waitMillis count got)
  /-- In `loop_rx`, before the packet is processed that a byte completes. -/
  | decoded (d : Device cfg H) (b : UInt8) : Stage d (d.decoded b)
  | decodeByte (d : Device cfg H) (b : UInt8) : Stage d (d.decodeByte react b)
  /-- In `loop_cleanup`, before the sweep. -/
  | restartTimer (d : Device cfg H) : Stage d { d with cleanupTimer := .reset d.now }
  /-- In `loop_cleanup`, before the handler is called. -/
  | timeout (d : Device cfg H) (cmdId : UInt32) :
      Stage d { d.log (.commandTimeout cmdId) with tmpData := d.tmpData.clear }
  | cleanupSlot (d : Device cfg H) (millisNow : UInt32) (slot : Fin cfg.maxPendingCommands) :
      Stage d (d.cleanupSlot react millisNow slot)
  /-- At the start of a response handler. -/
  | responseCall (d : Device cfg H) (slot : Fin cfg.maxPendingCommands) (handler : H)
      (cmdId : UInt32) (status : UInt8) (data : List UInt8) (origin : Origin) :
      Stage d ({ d with calls := d.calls + 1 }.emit
        (.responseCall slot handler cmdId status data origin))
  /-- At the start of the command handler. -/
  | commandCall (d : Device cfg H) (cmdId : UInt32) (endpoint : UInt8) :
      Stage d (d.handlerStart cmdId endpoint).2
  /-- At the start of the message handler. -/
  | messageCall (d : Device cfg H) (endpoint : UInt8) :
      Stage d ({ d with calls := d.calls + 1 }.emit
        (.messageCall endpoint d.packetDecoder.decodedData.contents))

/-- The states a client goes through from a state on. -/
abbrev Visits : Device cfg H → Device cfg H → Prop := Relation.ReflTransGen (Stage react)

/-! ## Runs -/

theorem visits_wait (d : Device cfg H) (millis : ℕ) : Visits react d (d.wait millis) :=
  .single (.act d .decoder (.delay millis))

theorem visits_foldl_decodeByte (bytes : List UInt8) (d : Device cfg H) :
    Visits react d (bytes.foldl (decodeByte react) d) := by
  induction bytes generalizing d with
  | nil => exact .refl
  | cons b bytes ih => exact .head (.decodeByte d b) (ih _)

theorem visits_loopRx? {d d' : Device cfg H} {n : ℕ} {answers : List ReadAnswer}
    (h : loopRx? react d n answers = some d') : Visits react d d' := by
  induction answers generalizing d n with
  | nil =>
    rcases n with _ | n
    · rw [loopRx?, Option.some_inj] at h
      exact h ▸ .refl
    · exact absurd h (Option.some_ne_none _).symm
  | cons answer answers ih =>
    rcases n with _ | n
    · rw [loopRx?, Option.some_inj] at h
      exact h ▸ .refl
    · rw [loopRx?] at h
      have hread : Visits react d (d.afterRead answer.waitMillis (min rxTransferBufferLen (n + 1))
          (answer.bytes.take (min rxTransferBufferLen (n + 1))).length) :=
        .single (.afterRead d _ _ _)
      split at h
      · exact Option.some_inj.mp h ▸ hread
      · exact (hread.trans (visits_foldl_decodeByte react _ _)).trans (ih h)

theorem visits_sweep (d : Device cfg H) (millisNow : UInt32) :
    Visits react d (d.sweep react millisNow) := by
  rw [sweep]
  induction List.finRange cfg.maxPendingCommands generalizing d with
  | nil => exact .refl
  | cons slot slots ih => exact .head (.cleanupSlot d millisNow slot) (ih _)

theorem visits_loopCleanup (d : Device cfg H) (resetMillis sweepMillis : ℕ) :
    Visits react d (d.loopCleanup react resetMillis sweepMillis) := by
  rw [loopCleanup]
  split
  · exact .refl
  · have hreset : Visits react d { d.wait resetMillis with
        cleanupTimer := .reset (d.wait resetMillis).now } :=
      .tail (visits_wait react d resetMillis) (.restartTimer _)
    exact (hreset.trans (visits_wait react _ sweepMillis)).trans (visits_sweep react _ _)

theorem visits_step {d d' : Device cfg H} {op : Op cfg H} (h : step react d op = some d') :
    Visits react d d' := by
  cases op with
  | begin => exact Option.some_inj.mp h ▸ .single (.begin d)
  | sendCommand endpoint data responseHandler timeoutMillis tx =>
    exact Option.some_inj.mp h ▸
      .single (.act d .decoder (.sendCommand endpoint data responseHandler timeoutMillis tx))
  | sendMessage endpoint data tx =>
    exact Option.some_inj.mp h ▸ .single (.act d .decoder (.sendMessage endpoint data tx))
  | delay millis => exact Option.some_inj.mp h ▸ visits_wait react d millis
  | loop input =>
    change d.loop react input = some d' at h
    rw [loop] at h
    split at h
    · exact Option.some_inj.mp h ▸ .refl
    · obtain ⟨d₁, hrx, rfl⟩ := Option.map_eq_some_iff.mp h
      exact (visits_loopRx? react hrx).trans (visits_loopCleanup react _ _ _)

/-- **What a run reaches is visited.** -/
theorem visits_run {d d' : Device cfg H} {ops : List (Op cfg H)}
    (h : Runs.run (step react) d ops = some d') : Visits react d d' :=
  Runs.related_of_run (fun _ ↦ .refl) (fun _ _ _ ↦ .trans)
    (fun _ _ _ _ hstep ↦ visits_step react hstep) h

/-! ## Contexts and their handlers -/

/-- Every context is free or has a handler, and no context was found to be neither. -/
structure Tidy (d : Device cfg H) : Prop where
  contexts : ∀ slot, (d.commandContexts slot).cmdId = 0 ↔
    (d.commandContexts slot).responseHandler = none
  reports : ∀ r ∈ d.reports, ¬r.IsNullHandler

variable {d d' : Device cfg H}

theorem Tidy.extend (h : Tidy d) (hcontexts : d'.commandContexts = d.commandContexts)
    {reports : List Report} (hreports : d'.reports = d.reports ++ reports)
    (hother : ∀ r ∈ reports, ¬r.IsNullHandler) : Tidy d' := by
  refine ⟨fun slot ↦ ?_, ?_⟩
  · rw [hcontexts]
    exact h.contexts slot
  · rw [hreports]
    exact List.forall_mem_append.mpr ⟨h.reports, hother⟩

theorem Tidy.same (h : Tidy d) (hcontexts : d'.commandContexts = d.commandContexts)
    (hreports : d'.reports = d.reports) : Tidy d' :=
  h.extend hcontexts (show d'.reports = d.reports ++ [] by rw [hreports, List.append_nil])
    fun _ hr ↦ absurd hr List.not_mem_nil

theorem Tidy.log (h : Tidy d) {r : Report} (hr : ¬r.IsNullHandler) : Tidy (d.log r) :=
  h.extend rfl rfl (List.forall_mem_singleton.mpr hr)

theorem Tidy.clearContext (h : Tidy d) (slot : Fin cfg.maxPendingCommands) :
    Tidy (d.clearContext slot) := by
  refine ⟨fun other ↦ ?_, h.reports⟩
  rw [commandContexts_clearContext]
  by_cases hother : other = slot
  · rw [hother, Function.update_self]
    exact iff_of_true rfl rfl
  · rw [Function.update_of_ne hother]
    exact h.contexts other

theorem Tidy.setUpContext (h : Tidy d) (slot : Fin cfg.maxPendingCommands) {cmdId : UInt32}
    (hne : cmdId ≠ 0) (handler : H) (timeoutMillis : UInt16) :
    Tidy (d.setUpContext slot cmdId handler timeoutMillis) := by
  refine ⟨fun other ↦ ?_, h.reports⟩
  rw [commandContexts_setUpContext]
  by_cases hother : other = slot
  · rw [hother, Function.update_self]
    exact iff_of_false hne (Option.some_ne_none handler)
  · rw [Function.update_of_ne hother]
    exact h.contexts other

theorem Tidy.transmit (h : Tidy d) (start : ℕ) (p : Packet (SerialPacketsData cfg))
    (tx : TxAnswers) : Tidy (d.transmit start p tx).2 := by
  have hencoder := d.packetEncoder.not_isNullHandler_of_encodePacket p
    (d.preFlagDue (d.now + tx.flushMillis)) d.tmpStuffedPacket
  rw [Device.transmit]
  dsimp only
  split
  · split <;> exact h.extend rfl rfl hencoder
  · exact h.extend rfl rfl hencoder

theorem Tidy.logs (h : Tidy d) (hlogs : Logs d d') : Tidy d' := by
  rcases hlogs with _ | hr
  · exact h
  · exact h.log hr

theorem Tidy.sendMessage (h : Tidy d) (endpoint : UInt8) (data : SerialPacketsData cfg)
    (tx : TxAnswers) : Tidy (d.sendMessage endpoint data tx).2 := by
  rcases d.sendMessage_cases endpoint data tx with ⟨-, heq⟩ | ⟨-, d₁, x, rfl, -, hlogs, -⟩
  · rw [heq]
    exact h
  · exact (h.transmit d.now (.message endpoint data) tx).logs hlogs

theorem Tidy.sendCommand (h : Tidy d) (endpoint : UInt8) (data : SerialPacketsData cfg)
    (responseHandler : Option H) (timeoutMillis : UInt16) (tx : TxAnswers) :
    Tidy (d.sendCommand endpoint data responseHandler timeoutMillis tx).2 := by
  have hassign : Tidy d.assignCmdId := h.same rfl rfl
  rcases d.sendCommand_cases endpoint data responseHandler timeoutMillis tx with
    ⟨-, -, hlogs⟩ | ⟨-, slot, handler, d₁, x, rfl, -, -, -, hrest⟩
  · exact h.logs hlogs
  · have htransmit := hassign.transmit d.now
      (.command (nextCmdId d.cmdIdCounter) endpoint data) tx
    rcases hrest with ⟨-, -, hlogs⟩ | ⟨-, hsuccess⟩
    · exact htransmit.logs hlogs
    · rw [hsuccess]
      exact htransmit.setUpContext slot (nextCmdId_ne_zero _) handler timeoutMillis

theorem Tidy.act (h : Tidy d) (source : Source) (action : Action cfg H) :
    Tidy (d.act source action) := by
  cases action with
  | sendCommand endpoint data responseHandler timeoutMillis tx =>
    exact h.sendCommand endpoint data responseHandler timeoutMillis tx
  | sendMessage endpoint data tx => exact h.sendMessage endpoint data tx
  | readData op => cases source <;> exact h.same rfl rfl
  | _ => exact h.same rfl rfl

theorem Tidy.actOnCommand (h : Tidy d) (status : UInt8) (action : Action cfg H) :
    Tidy (actOnCommand (status, d) action).2 := by
  cases action with
  | readResponse op | writeResponse op | setStatus status => exact h.same rfl rfl
  | sendCommand endpoint data responseHandler timeoutMillis tx =>
    exact h.sendCommand endpoint data responseHandler timeoutMillis tx
  | sendMessage endpoint data tx => exact h.sendMessage endpoint data tx
  | readData op | delay millis => exact h.same rfl rfl

theorem Tidy.foldl_act (h : Tidy d) (source : Source) (actions : List (Action cfg H)) :
    Tidy (actions.foldl (Device.act source) d) := by
  induction actions generalizing d with
  | nil => exact h
  | cons action actions ih => exact ih (h.act source action)

theorem Tidy.foldl_actOnCommand (h : Tidy d) (status : UInt8) (actions : List (Action cfg H)) :
    Tidy (actions.foldl Device.actOnCommand (status, d)).2 := by
  induction actions generalizing status d with
  | nil => exact h
  | cons action actions ih => exact ih (h.actOnCommand status action) _

theorem Tidy.callResponseHandler (h : Tidy d) (slot : Fin cfg.maxPendingCommands) (handler : H)
    (cmdId : UInt32) (status : UInt8) (data : List UInt8) (origin : Origin) :
    Tidy (d.callResponseHandler react slot handler cmdId status data origin) := by
  have hcall : Tidy ({ d with calls := d.calls + 1 }.emit
      (.responseCall slot handler cmdId status data origin)) := h.same rfl rfl
  exact hcall.foldl_act _ _

theorem Tidy.decoded (h : Tidy d) (b : UInt8) : Tidy (d.decoded b) :=
  h.extend rfl rfl (d.packetDecoder.not_isNullHandler_of_decodeNextByte b)

theorem Tidy.processDecodedCommandPacket (h : Tidy d) (cmdId : UInt32) (endpoint : UInt8) :
    Tidy (d.processDecodedCommandPacket react cmdId endpoint) := by
  by_cases hhandler : d.optionalCommandHandler = none
  · rw [Device.processDecodedCommandPacket, if_pos (by rw [hhandler]; rfl)]
    exact h.log id
  · have hstart : Tidy (d.handlerStart cmdId endpoint).2 := h.same rfl rfl
    have hbody := hstart.foldl_actOnCommand statusOk (react d.calls).actions
    have hlogs := processDecodedCommandPacket_spec react cmdId endpoint hhandler rfl
    refine Tidy.logs (Tidy.transmit ?_ _ _ _) hlogs
    exact hbody.same rfl rfl

theorem Tidy.processDecodedResponsePacket (h : Tidy d) (cmdId : UInt32) (status : UInt8) :
    Tidy (d.processDecodedResponsePacket react cmdId status) := by
  rw [Device.processDecodedResponsePacket]
  split
  · exact h.log id
  · rename_i hpending
    rcases hslot : d.findContextWithCmdId cmdId with _ | slot
    · exact h.log id
    · dsimp only
      rcases hhandler : (d.commandContexts slot).responseHandler with _ | handler
      · have hfree := (h.contexts slot).mpr hhandler
        exact absurd ((cmdId_of_findContextWithCmdId hslot).symm.trans hfree) hpending
      · exact (h.callResponseHandler react _ _ _ _ _ _).clearContext slot

theorem Tidy.processDecodedMessagePacket (h : Tidy d) (endpoint : UInt8) :
    Tidy (d.processDecodedMessagePacket react endpoint) := by
  rw [Device.processDecodedMessagePacket]
  split
  · exact h.log id
  · have hcall : Tidy ({ d with calls := d.calls + 1 }.emit
        (.messageCall endpoint d.packetDecoder.decodedData.contents)) := h.same rfl rfl
    exact hcall.foldl_act _ _

theorem Tidy.decodeByte (h : Tidy d) (b : UInt8) : Tidy (d.decodeByte react b) := by
  rw [Device.decodeByte]
  split
  · split
    · exact (h.decoded b).processDecodedCommandPacket react _ _
    · exact (h.decoded b).processDecodedResponsePacket react _ _
    · exact (h.decoded b).processDecodedMessagePacket react _
  · exact h.decoded b

theorem Tidy.cleanupSlot (h : Tidy d) (millisNow : UInt32) (slot : Fin cfg.maxPendingCommands) :
    Tidy (d.cleanupSlot react millisNow slot) := by
  rw [Device.cleanupSlot]
  dsimp only
  split
  · exact h
  · rename_i hpending
    split
    · exact h
    · refine Tidy.clearContext ?_ slot
      rcases hhandler : (d.commandContexts slot).responseHandler with _ | handler
      · exact absurd ((h.contexts slot).mpr hhandler) hpending
      · have hlog : Tidy (d.log (.commandTimeout (d.commandContexts slot).cmdId)) := h.log id
        have hclear : Tidy { d.log (.commandTimeout (d.commandContexts slot).cmdId) with
            tmpData := d.tmpData.clear } := hlog.same rfl rfl
        exact hclear.callResponseHandler react _ _ _ _ _ _

theorem Stage.tidy (hstage : Stage react d d') (h : Tidy d) : Tidy d' := by
  cases hstage with
  | begin =>
    rw [Device.begin]
    split
    · exact h.log id
    · exact h.same rfl rfl
  | act source action => exact h.act source action
  | actOnCommand status action => exact h.actOnCommand status action
  | afterRead waitMillis count got =>
    have hwait : Tidy (d.wait waitMillis) := h.same rfl rfl
    rw [Device.afterRead]
    split
    · exact hwait.log id
    · exact hwait
  | decoded b => exact h.decoded b
  | decodeByte b => exact h.decodeByte react b
  | timeout cmdId => exact Tidy.same (h.log (r := .commandTimeout cmdId) id) rfl rfl
  | cleanupSlot millisNow slot => exact h.cleanupSlot react millisNow slot
  | _ => exact h.same rfl rfl

/-- **Every context has a handler or is free**, at all times, and the branches for contexts without
a handler are never taken. -/
theorem Visits.tidy (hvisits : Visits react d d') (h : Tidy d) : Tidy d' := by
  induction hvisits with
  | refl => exact h
  | tail _ hstage ih => exact hstage.tidy react ih

theorem IsFresh.tidy (h : IsFresh d) (hreports : d.reports = []) : Tidy d := by
  refine ⟨fun slot ↦ ?_, ?_⟩
  · rw [h.contexts slot]
    exact iff_of_true rfl rfl
  · rw [hreports]
    exact fun _ hr ↦ absurd hr List.not_mem_nil

end Device

end SerialPackets

import SerialPackets.Client.Cleanup
import SerialPackets.Client.Dispatch
import SerialPackets.Client.History
import SerialPackets.Client.LeftAlone

/-!
# Deadlines

The fate of an accepted command is followed from the moment `sendCommand` returns to a program that
called it between two operations. What happens first to its slot is the call of its handler: for a
response, or for the timeout, by a pass of `loop_cleanup` that read the clock when the timeout was
over (`fate_of_run`). And it does happen: once the timeout is over, two calls of `loop` are enough
of which the second starts two milliseconds after the first has returned, whatever else the program
does in between (`called_of_two_loops`). Two calls are needed because `loop_cleanup` skips a pass
that comes too soon after the last one.

Clocks are read modulo their turn, so that both results are about commands less than half a turn
old, which is more than three weeks.
-/

namespace SerialPackets

variable {cfg : Config} {H : Type*}

namespace Device

variable {react : ℕ → Reaction cfg H} {since : ℕ} {d d' m : Device cfg H}
  {slot : Fin cfg.maxPendingCommands} {cmdId : UInt32} {handler : H} {timeoutMillis : UInt16}
  {bytes : List UInt8} {e : Event cfg H}

/-! ## The first thing that happens to a slot -/

/-- What has happened to the slot since `d` begins with this event. -/
def FirstEvent (d d' : Device cfg H) (slot : Fin cfg.maxPendingCommands) (e : Event cfg H) : Prop :=
  ∃ rest, d'.slotTrace slot = d.slotTrace slot ++ e :: rest

/-- The handler of a command has been called since `d`, as the first thing that happened to the slot
of the command. -/
def Called (d d' : Device cfg H) (slot : Fin cfg.maxPendingCommands) (cmdId : UInt32)
    (handler : H) : Prop :=
  ∃ status data origin, FirstEvent d d' slot (.responseCall slot handler cmdId status data origin)

/-- The call of a handler for a timeout. -/
def timeoutCall (slot : Fin cfg.maxPendingCommands) (cmdId : UInt32) (handler : H) : Event cfg H :=
  .responseCall slot handler cmdId statusTimeout [] .cleanup

/-- A call of `loop` in which the command times out: what it receives does nothing to the slot, and
then its pass of `loop_cleanup` reads the clock, finds the deadline reached and calls the
handler. -/
def TimesOut (react : ℕ → Reaction cfg H) (d : Device cfg H) (input : LoopInput)
    (slot : Fin cfg.maxPendingCommands) (cmdId : UInt32) (handler : H) (deadline : ℕ) : Prop :=
  ∃ m, loopRx? react d (input.available % 2 ^ 16).toNat input.reads = some m ∧ SlotStill d m slot ∧
    deadline ≤ m.now + input.resetMillis + input.sweepMillis ∧
      FirstEvent d (m.loopCleanup react input.resetMillis input.sweepMillis) slot
        (timeoutCall slot cmdId handler)

/-- What may have become of a command with a deadline in a run from `d` to `d'`. -/
inductive Fate (react : ℕ → Reaction cfg H) (d : Device cfg H) (ops : List (Op cfg H))
    (d' : Device cfg H) (slot : Fin cfg.maxPendingCommands) (cmdId : UInt32) (handler : H)
    (deadline : ℕ) : Prop
  | waiting (h : SlotStill d d' slot)
  | answered (status : UInt8) (data : List UInt8)
      (h : FirstEvent d d' slot (.responseCall slot handler cmdId status data .response))
  | timedOut (pre post : List (Op cfg H)) (input : LoopInput) (m : Device cfg H)
      (hops : ops = pre ++ .loop input :: post) (hpre : Runs.run (step react) d pre = some m)
      (hstill : SlotStill d m slot) (htimesOut : TimesOut react m input slot cmdId handler deadline)
      (h : FirstEvent d d' slot (timeoutCall slot cmdId handler))

theorem SlotStill.trans (h₁ : SlotStill d m slot) (h₂ : SlotStill m d' slot) :
    SlotStill d d' slot :=
  ⟨h₂.1.trans h₁.1, h₂.2.trans h₁.2⟩

private theorem Moves.slotTrace_grows (h : Moves d bytes d') (slot : Fin cfg.maxPendingCommands) :
    d.slotTrace slot <+: d'.slotTrace slot := by
  obtain ⟨blocks, -, htrace⟩ := Moves.growsByBlocks h
  rw [slotTrace, slotTrace, htrace, List.filter_append]
  exact List.prefix_append _ _

private theorem SlotGrows.slotTrace_grows (h : SlotGrows d d' slot) :
    d.slotTrace slot <+: d'.slotTrace slot := by
  rcases h with ⟨htrace, -⟩ | ⟨-, cmdId, handler, -, htrace, -, -⟩
  · rw [htrace]
  · rw [htrace]
    exact List.prefix_append _ _

private theorem FirstEvent.grows (h : FirstEvent d m slot e)
    (hgrows : m.slotTrace slot <+: d'.slotTrace slot) : FirstEvent d d' slot e := by
  obtain ⟨rest, hm⟩ := h
  obtain ⟨more, hmore⟩ := hgrows
  exact ⟨rest ++ more, by rw [← hmore, hm, List.append_assoc]; rfl⟩

private theorem FirstEvent.moves (h : FirstEvent d m slot e) (hmoves : Moves m bytes d') :
    FirstEvent d d' slot e :=
  h.grows (Moves.slotTrace_grows hmoves slot)

private theorem FirstEvent.of_still (hstill : SlotStill d m slot) (h : FirstEvent m d' slot e) :
    FirstEvent d d' slot e := by
  obtain ⟨rest, hrest⟩ := h
  exact ⟨rest, hstill.1 ▸ hrest⟩

private theorem Called.moves (h : Called d m slot cmdId handler) (hmoves : Moves m bytes d') :
    Called d d' slot cmdId handler := by
  obtain ⟨status, data, origin, hfirst⟩ := h
  exact ⟨status, data, origin, hfirst.moves hmoves⟩

private theorem Called.of_still (hstill : SlotStill d m slot) (h : Called m d' slot cmdId handler) :
    Called d d' slot cmdId handler := by
  obtain ⟨status, data, origin, hfirst⟩ := h
  exact ⟨status, data, origin, hfirst.of_still hstill⟩

theorem slotStill_begin (d : Device cfg H) (slot : Fin cfg.maxPendingCommands) :
    SlotStill d d.begin slot := by
  rw [Device.begin]
  split
  · exact (d.quiet_log _).toStill.slotStill
  · exact slotStill_of_trace (e := .begun d.now) rfl (by simp [Event.slot?]) rfl

/-- The processing of a packet does nothing to a pending slot, unless it is a response for which the
slot is found. Then it calls the handler of the slot. -/
private theorem slot_process (react : ℕ → Reaction cfg H) (p : Packet (List UInt8))
    (hid : (d.commandContexts slot).cmdId = cmdId) (hpending : cmdId ≠ 0)
    (hhandler : (d.commandContexts slot).responseHandler = some handler) :
    (SlotStill d (d.process react p) slot ∧ ∀ status data, p = .response cmdId status data →
      d.findContextWithCmdId cmdId ≠ some slot) ∨
    ∃ status data, p = .response cmdId status data ∧
      (d.process react p).slotTrace slot = d.slotTrace slot
        ++ [.responseCall slot handler cmdId status d.packetDecoder.decodedData.contents .response,
          .released slot] := by
  have hne : (d.commandContexts slot).cmdId ≠ 0 := hid ▸ hpending
  cases p with
  | command cmdId' endpoint data =>
    -- a command handler can only fill free slots, and this one is not free
    refine Or.inl ⟨SlotGrows.still_of_pending ?_ hne, fun _ _ heq ↦ absurd heq (by simp)⟩
    rw [process]
    by_cases hcommand : d.optionalCommandHandler = none
    · rw [processDecodedCommandPacket, if_pos (by rw [hcommand]; rfl)]
      exact Or.inl (d.quiet_log _).toStill.slotStill
    · have hlogs := processDecodedCommandPacket_spec react cmdId' endpoint hcommand rfl
      have hbody : Sends (d.handlerStart cmdId' endpoint).2
          ((react d.calls).actions.foldl actOnCommand (d.handlerStart cmdId' endpoint)).2 :=
        sends_foldl_actOnCommand (react d.calls).actions statusOk _
      obtain ⟨x, htx, -⟩ := transmit_spec _ d.now _ (react d.calls).tx
      have hcall : SlotGrows d (d.handlerStart cmdId' endpoint).2 slot :=
        Or.inl (slotStill_of_trace rfl (by simp [Event.slot?]) rfl)
      exact ((hcall.trans (hbody.slotGrows slot)).trans (slotGrows_emit rfl)).trans
        ((SlotGrows.trans (Or.inl htx.slotStill) (Or.inl hlogs.quiet.toStill.slotStill)))
  | message endpoint data =>
    refine Or.inl ⟨SlotGrows.still_of_pending ?_ hne, fun _ _ heq ↦ absurd heq (by simp)⟩
    rw [process, processDecodedMessagePacket]
    split
    · exact Or.inl (d.quiet_log _).toStill.slotStill
    · have hcall : SlotGrows d ({ d with calls := d.calls + 1 }.emit
          (.messageCall endpoint d.packetDecoder.decodedData.contents)) slot :=
        Or.inl (slotStill_of_trace rfl (by simp [Event.slot?]) rfl)
      exact hcall.trans ((sends_foldl_act _ _ _).slotGrows slot)
  | response cmdId' status data =>
    rw [process, processDecodedResponsePacket]
    split
    · rename_i hzero
      refine Or.inl ⟨(d.quiet_log _).toStill.slotStill, fun _ _ heq ↦ absurd ?_ hpending⟩
      exact (Packet.response.inj heq).1.symm.trans hzero
    · cases hfind : d.findContextWithCmdId cmdId' with
      | none =>
        refine Or.inl ⟨(d.quiet_log _).toStill.slotStill, fun _ _ heq ↦ ?_⟩
        rw [← (Packet.response.inj heq).1, hfind]
        exact (Option.some_ne_none slot).symm
      | some found =>
        -- the id found another slot, so it is not the id of this one or is not found here
        have hother (hslot : slot ≠ found) (status' : UInt8) (data' : List UInt8)
            (heq : Packet.response cmdId' status data = .response cmdId status' data') :
            d.findContextWithCmdId cmdId ≠ some slot := by
          rw [← (Packet.response.inj heq).1, hfind]
          exact fun hsome ↦ hslot (Option.some_inj.mp hsome).symm
        dsimp only
        cases hfound : (d.commandContexts found).responseHandler with
        | none =>
          refine Or.inl ⟨(d.quiet_log _).toStill.slotStill, hother fun hslot ↦ ?_⟩
          rw [← hslot, hhandler] at hfound
          exact Option.some_ne_none handler hfound
        | some handler' =>
          have hbody := moves_callResponseHandler react found handler' cmdId' status
            d.packetDecoder.decodedData.contents .response d
          by_cases hslot : slot = found
          · subst hslot
            obtain rfl : handler = handler' := Option.some_inj.mp (hhandler.symm.trans hfound)
            have hfind' : cmdId = cmdId' := hid.symm.trans (cmdId_of_findContextWithCmdId hfind)
            subst hfind'
            exact Or.inr ⟨status, data, rfl,
              (slotTrace_call (d := { d with calls := d.calls + 1 }) hne hbody).1⟩
          · exact Or.inl ⟨(slotGrows_call hslot hbody).still_of_pending hne, hother hslot⟩

theorem slot_decodeByte (react : ℕ → Reaction cfg H) (b : UInt8)
    (hid : (d.commandContexts slot).cmdId = cmdId) (hpending : cmdId ≠ 0)
    (hhandler : (d.commandContexts slot).responseHandler = some handler) :
    (SlotStill d (d.decodeByte react b) slot ∧ ∀ status data,
      d.packetDecoder.reportAt b = some (.response cmdId status data) →
        d.findContextWithCmdId cmdId ≠ some slot) ∨
    ∃ status data, d.packetDecoder.reportAt b = some (.response cmdId status data) ∧
      FirstEvent d (d.decodeByte react b) slot
        (.responseCall slot handler cmdId status data .response) := by
  have hstill : SlotStill d (d.decoded b) slot := (d.decodes_decoded b).toStill.slotStill
  cases hreport : d.packetDecoder.reportAt b with
  | none =>
    rw [decodeByte_of_reportAt_none hreport]
    exact Or.inl ⟨hstill, fun _ _ heq ↦ absurd heq.symm (Option.some_ne_none _)⟩
  | some p =>
    obtain ⟨hdata, hprocess⟩ := decodeByte_of_reportAt react hreport
    have hid' : ((d.decoded b).commandContexts slot).cmdId = cmdId := by rw [hstill.2, hid]
    have hhandler' : ((d.decoded b).commandContexts slot).responseHandler = some handler := by
      rw [hstill.2, hhandler]
    rw [hprocess]
    rcases slot_process react p hid' hpending hhandler' with
      ⟨hprocessed, hnone⟩ | ⟨status, data, rfl, htrace⟩
    · exact Or.inl ⟨hstill.trans hprocessed,
        fun status data heq ↦ hnone status data (Option.some_inj.mp heq)⟩
    · rw [hdata] at htrace
      exact Or.inr ⟨status, data, rfl, FirstEvent.of_still hstill ⟨_, htrace⟩⟩

private theorem slot_passes (h : Passes react d bytes d')
    (hid : (d.commandContexts slot).cmdId = cmdId) (hpending : cmdId ≠ 0)
    (hhandler : (d.commandContexts slot).responseHandler = some handler) :
    SlotStill d d' slot ∨ ∃ status data,
      FirstEvent d d' slot (.responseCall slot handler cmdId status data .response) := by
  induction h with
  | refl => exact Or.inl ⟨rfl, rfl⟩
  | tail _ hstep ih =>
    rcases ih with hstill | ⟨status, data, hfirst⟩
    · cases hstep with
      | read waitMillis count got =>
        exact Or.inl (hstill.trans (quiet_afterRead _ _ _ _).toStill.slotStill)
      | byte b =>
        rcases slot_decodeByte react b (hstill.2 ▸ hid) hpending (hstill.2 ▸ hhandler) with
          ⟨hbyte, -⟩ | ⟨status, data, -, hfirst⟩
        · exact Or.inl (hstill.trans hbyte)
        · exact Or.inr ⟨status, data, FirstEvent.of_still hstill hfirst⟩
    · have hmoves := Strides.moves (strides_of_passes (.single hstep))
      exact Or.inr ⟨status, data, hfirst.moves hmoves⟩

/-! ## A command that waits -/

/-- The slot holds the command that was sent with this id, handler and timeout at the time `since`,
and the client has begun. -/
structure Waiting (d : Device cfg H) (since : ℕ) (slot : Fin cfg.maxPendingCommands)
    (cmdId : UInt32) (handler : H) (timeoutMillis : UInt16) : Prop where
  begun : d.begun = true
  since_le : since ≤ d.now
  pending : cmdId ≠ 0
  timeout_le : timeoutMillis ≤ maxCmdTimeoutMillis
  context : d.commandContexts slot = ⟨cmdId, some handler, millis since + timeoutMillis.toUInt32⟩

namespace Waiting

theorem cmdId_eq (h : Waiting d since slot cmdId handler timeoutMillis) :
    (d.commandContexts slot).cmdId = cmdId :=
  congrArg CommandContext.cmdId h.context

theorem responseHandler_eq (h : Waiting d since slot cmdId handler timeoutMillis) :
    (d.commandContexts slot).responseHandler = some handler :=
  congrArg CommandContext.responseHandler h.context

theorem cmdId_ne (h : Waiting d since slot cmdId handler timeoutMillis) :
    (d.commandContexts slot).cmdId ≠ 0 :=
  h.cmdId_eq.trans_ne h.pending

theorem moves (h : Waiting d since slot cmdId handler timeoutMillis) (hmoves : Moves d bytes d')
    (hstill : SlotStill d d' slot) : Waiting d' since slot cmdId handler timeoutMillis :=
  ⟨kept_begun.moves hmoves h.begun, h.since_le.trans (Moves.now_le hmoves), h.pending,
    h.timeout_le, hstill.2.trans h.context⟩

theorem passes (h : Waiting d since slot cmdId handler timeoutMillis)
    (hpasses : Passes react d bytes d') (hstill : SlotStill d d' slot) :
    Waiting d' since slot cmdId handler timeoutMillis :=
  h.moves (Strides.moves (strides_of_passes hpasses)) hstill

end Waiting

private theorem begun_sendCommand {endpoint : UInt8} {data : SerialPacketsData cfg}
    {responseHandler : Option H} {tx : TxAnswers}
    (hok : (d.sendCommand endpoint data responseHandler timeoutMillis tx).1.ok = true) :
    (d.sendCommand endpoint data responseHandler timeoutMillis tx).2.begun = true := by
  rcases d.sendCommand_cases endpoint data responseHandler timeoutMillis tx with
    ⟨-, hfailed, -⟩ | ⟨⟨hbegun, -⟩, -⟩
  · rw [hfailed] at hok
    exact absurd hok Bool.false_ne_true
  · exact (d.sends_sendCommand endpoint data responseHandler timeoutMillis tx).frame.2.1.trans
      hbegun

/-- A command that has been accepted waits. -/
private theorem exists_waiting_sendCommand (d : Device cfg H) {endpoint : UInt8}
    {data : SerialPacketsData cfg} {responseHandler : Option H} {tx : TxAnswers}
    (hok : (d.sendCommand endpoint data responseHandler timeoutMillis tx).1.ok = true) :
    let sent := d.sendCommand endpoint data responseHandler timeoutMillis tx
    ∃ slot handler, responseHandler = some handler ∧
      Waiting sent.2 sent.2.now slot sent.1.cmdId handler timeoutMillis := by
  intro sent
  obtain ⟨hpending, htimeout, slot, handler, hhandler, hcontext⟩ :=
    d.exists_context_sendCommand endpoint data responseHandler timeoutMillis tx hok
  exact ⟨slot, handler, hhandler, begun_sendCommand hok, le_refl _, hpending, htimeout, hcontext⟩

/-! ## A pass of the cleanup -/

private theorem loopCleanup_of_pass (react : ℕ → Reaction cfg H) (resetMillis sweepMillis : ℕ)
    (hwait : Waiting d since slot cmdId handler timeoutMillis)
    (hpass : 2 ≤ (d.cleanupTimer.elapsedMillis d.now).toNat) :
    ∃ d₀, d.loopCleanup react resetMillis sweepMillis = d₀.sweep react (millis d₀.now) ∧
      d₀.now = d.now + resetMillis + sweepMillis ∧ SlotStill d d₀ slot ∧
      Waiting d₀ since slot cmdId handler timeoutMillis := by
  refine ⟨{ d.wait resetMillis with cleanupTimer := .reset (d.wait resetMillis).now }.wait
    sweepMillis, ?_, rfl, ⟨rfl, rfl⟩, hwait.begun, ?_, hwait.pending, hwait.timeout_le,
    hwait.context⟩
  · rw [loopCleanup, if_neg (Nat.not_lt_of_le hpass)]
  · exact hwait.since_le.trans (Nat.le_add_right_of_le (Nat.le_add_right _ _))

private theorem slot_sweep (react : ℕ → Reaction cfg H)
    (hwait : Waiting d since slot cmdId handler timeoutMillis) (hspan : d.now < since + 2 ^ 31) :
    (d.now < since + timeoutMillis.toNat → SlotStill d (d.sweep react (millis d.now)) slot) ∧
      (since + timeoutMillis.toNat ≤ d.now →
        FirstEvent d (d.sweep react (millis d.now)) slot (timeoutCall slot cmdId handler)) := by
  obtain ⟨m, hstill, hafter⟩ := exists_sweep react (millis d.now) hwait.cmdId_ne
  have hm : m.commandContexts slot
      = ⟨cmdId, some handler, millis since + timeoutMillis.toUInt32⟩ :=
    hstill.2.trans hwait.context
  have hcompare := millisLeft_pos_iff hwait.timeout_le hwait.since_le (by omega)
  constructor
  · intro hearly
    rw [cleanupSlot_of_early react (millis d.now) (by rw [hm, hcompare]; exact hearly)] at hafter
    exact hstill.trans (hafter.still_of_pending (by rw [hm]; exact hwait.pending))
  · intro hdue
    obtain ⟨hcalled, -⟩ := slotTrace_cleanupSlot_of_overdue react (millis d.now)
      (congrArg CommandContext.cmdId hm) hwait.pending (congrArg CommandContext.responseHandler hm)
      (by rw [hm, hcompare]; exact Nat.not_lt_of_le hdue)
    have hfirst : FirstEvent m (m.cleanupSlot react (millis d.now) slot) slot
        (timeoutCall slot cmdId handler) := ⟨_, hcalled⟩
    exact (hfirst.of_still hstill).grows hafter.slotTrace_grows

/-- The cleanup does nothing to a pending slot, unless its pass reads the clock when the timeout is
over. Then it calls the handler. -/
private theorem slot_loopCleanup {resetMillis sweepMillis : ℕ}
    (hwait : Waiting d since slot cmdId handler timeoutMillis)
    (hspan : (d.loopCleanup react resetMillis sweepMillis).now < since + 2 ^ 31) :
    SlotStill d (d.loopCleanup react resetMillis sweepMillis) slot ∧
        (2 ≤ (d.cleanupTimer.elapsedMillis d.now).toNat →
          d.now + resetMillis + sweepMillis < since + timeoutMillis.toNat) ∨
      since + timeoutMillis.toNat ≤ d.now + resetMillis + sweepMillis ∧
        FirstEvent d (d.loopCleanup react resetMillis sweepMillis) slot
          (timeoutCall slot cmdId handler) := by
  rcases Nat.lt_or_ge (d.cleanupTimer.elapsedMillis d.now).toNat 2 with hskip | hpass
  · rw [loopCleanup, if_pos hskip]
    exact Or.inl ⟨⟨rfl, rfl⟩, fun hpass ↦ absurd hpass (Nat.not_le_of_lt hskip)⟩
  obtain ⟨d₀, hsweep, hnow, hstill, hwait₀⟩ :=
    loopCleanup_of_pass react resetMillis sweepMillis hwait hpass
  have hle := Moves.now_le (moves_sweep react d₀ (millis d₀.now))
  rw [hsweep] at hspan ⊢
  obtain ⟨hearly, hover⟩ := slot_sweep react hwait₀ (hle.trans_lt hspan)
  rw [← hnow]
  rcases Nat.lt_or_ge d₀.now (since + timeoutMillis.toNat) with hbefore | hdue
  · exact Or.inl ⟨hstill.trans (hearly hbefore), fun _ ↦ hbefore⟩
  · exact Or.inr ⟨hdue, (hover hdue).of_still hstill⟩

/-! ## The cleanup timer

Only a pass of `loop_cleanup` touches the cleanup timer. -/

private theorem leftAlone_cleanupTimer :
    LeftAlone fun d : Device cfg H ↦ d.cleanupTimer where
  wait _ _ := rfl
  log _ _ _ := rfl
  emit _ _ := rfl
  called _ := rfl
  tmpData _ _ := rfl
  readDecoder _ _ := rfl
  assignCmdId _ := rfl
  setUpContext _ _ _ _ _ := rfl
  clearContext _ _ := rfl
  transmit d start p tx := by
    rw [transmit]
    dsimp only
    split
    · dsimp only
      split <;> rfl
    · rfl

private theorem cleanupTimer_process (react : ℕ → Reaction cfg H) (d : Device cfg H)
    (p : Packet (List UInt8)) : (d.process react p).cleanupTimer = d.cleanupTimer := by
  cases p with
  | command cmdId endpoint data =>
    rw [process]
    by_cases hcommand : d.optionalCommandHandler = none
    · rw [processDecodedCommandPacket, if_pos (by rw [hcommand]; rfl)]
      rfl
    · exact leftAlone_cleanupTimer.processDecodedCommandPacket react cmdId endpoint hcommand
  | response cmdId status data =>
    rw [process, processDecodedResponsePacket]
    split
    · rfl
    · rcases d.findContextWithCmdId cmdId with _ | slot
      · rfl
      dsimp only
      rcases (d.commandContexts slot).responseHandler with _ | handler
      · rfl
      · exact leftAlone_cleanupTimer.callResponseHandler react _ _ _ _ _ _ _
  | message endpoint data =>
    rw [process, processDecodedMessagePacket]
    split
    · rfl
    · exact leftAlone_cleanupTimer.foldl_act _ _ _

private theorem cleanupTimer_decodeByte (react : ℕ → Reaction cfg H) (d : Device cfg H)
    (b : UInt8) :
    (d.decodeByte react b).cleanupTimer = d.cleanupTimer := by
  cases hreport : d.packetDecoder.reportAt b with
  | none =>
    rw [decodeByte_of_reportAt_none hreport]
    rfl
  | some p =>
    obtain ⟨-, hprocess⟩ := decodeByte_of_reportAt react hreport
    rw [hprocess, cleanupTimer_process]
    rfl

private theorem cleanupTimer_passes (h : Passes react d bytes d') :
    d'.cleanupTimer = d.cleanupTimer := by
  induction h with
  | refl => rfl
  | tail _ hstep ih =>
    cases hstep with
    | read waitMillis count got =>
      rw [afterRead, ← ih]
      split <;> rfl
    | byte b => rw [cleanupTimer_decodeByte, ih]

/-! ## One operation -/

private theorem slot_loop {input : LoopInput} (hloop : d.loop react input = some d')
    (hwait : Waiting d since slot cmdId handler timeoutMillis) (hspan : d'.now < since + 2 ^ 31) :
    SlotStill d d' slot ∨
      (∃ status data, FirstEvent d d' slot
        (.responseCall slot handler cmdId status data .response)) ∨
      TimesOut react d input slot cmdId handler (since + timeoutMillis.toNat) ∧
        FirstEvent d d' slot (timeoutCall slot cmdId handler) := by
  rw [loop_of_begun react hwait.begun, Option.map_eq_some_iff] at hloop
  obtain ⟨m, hrx, rfl⟩ := hloop
  have hpasses := reads_loopRx? react hrx
  have hcleanup := moves_loopCleanup react m input.resetMillis input.sweepMillis
  rcases slot_passes hpasses hwait.cmdId_eq hwait.pending hwait.responseHandler_eq with
    hstill | ⟨status, data, hfirst⟩
  · rcases slot_loopCleanup (hwait.passes hpasses hstill) hspan with
      ⟨hstill', -⟩ | ⟨hdue, hfirst⟩
    · exact Or.inl (hstill.trans hstill')
    · have hfirst' := hfirst.of_still hstill
      exact Or.inr (Or.inr ⟨⟨m, hrx, hstill, hdue, hfirst'⟩, hfirst'⟩)
  · exact Or.inr (Or.inl ⟨status, data, hfirst.moves hcleanup⟩)

private theorem slotStill_step {op : Op cfg H} (hop : ∀ input, op ≠ .loop input)
    (h : step react d op = some d') (hpending : (d.commandContexts slot).cmdId ≠ 0) :
    SlotStill d d' slot := by
  cases op with
  | begin =>
    rw [← Option.some_inj.mp h]
    exact d.slotStill_begin slot
  | sendCommand endpoint data responseHandler timeoutMillis tx =>
    rw [← Option.some_inj.mp h]
    exact ((d.sends_sendCommand endpoint data responseHandler timeoutMillis tx).slotGrows
      slot).still_of_pending hpending
  | sendMessage endpoint data tx =>
    rw [← Option.some_inj.mp h]
    exact ((d.sends_sendMessage endpoint data tx).slotGrows slot).still_of_pending hpending
  | delay millis =>
    rw [← Option.some_inj.mp h]
    exact ⟨rfl, rfl⟩
  | loop input => exact absurd rfl (hop input)

/-! ## Whole runs -/

private theorem Fate.of_still {ops : List (Op cfg H)} {op : Op cfg H} {deadline : ℕ}
    (hstep : step react d op = some m) (hstill : SlotStill d m slot)
    (h : Fate react m ops d' slot cmdId handler deadline) :
    Fate react d (op :: ops) d' slot cmdId handler deadline := by
  rcases h with h | ⟨status, data, h⟩ | ⟨pre, post, input, a, hops, hpre, ha, htimesOut, h⟩
  · exact .waiting (hstill.trans h)
  · exact .answered status data (h.of_still hstill)
  · exact .timedOut (op :: pre) post input a (by rw [hops, List.cons_append])
      (Runs.run_cons_eq_some.mpr ⟨m, hstep, hpre⟩) (hstill.trans ha) htimesOut (h.of_still hstill)

/-- **A run**: the first thing that happens decides. -/
theorem fate_run {ops : List (Op cfg H)} (hrun : Runs.run (step react) d ops = some d')
    (hwait : Waiting d since slot cmdId handler timeoutMillis) (hspan : d'.now < since + 2 ^ 31) :
    Fate react d ops d' slot cmdId handler (since + timeoutMillis.toNat) := by
  induction ops generalizing d with
  | nil =>
    rw [Runs.run_nil, Option.some_inj] at hrun
    exact .waiting (hrun ▸ ⟨rfl, rfl⟩)
  | cons op ops ih =>
    obtain ⟨m, hstep, hrest⟩ := Runs.run_cons_eq_some.mp hrun
    obtain ⟨bytes, hmoves⟩ := moves_run react hrest
    obtain ⟨bytes', hmoves'⟩ := moves_step react hstep
    have hle := Moves.now_le hmoves
    have hafter (hstill : SlotStill d m slot) :
        Fate react d (op :: ops) d' slot cmdId handler (since + timeoutMillis.toNat) :=
      .of_still hstep hstill (ih hrest (hwait.moves hmoves' hstill))
    by_cases hop : ∀ input, op ≠ .loop input
    · exact hafter (slotStill_step hop hstep hwait.cmdId_ne)
    · push Not at hop
      obtain ⟨input, rfl⟩ := hop
      rcases slot_loop hstep hwait (hle.trans_lt hspan) with
        hstill | ⟨status, data, hfirst⟩ | ⟨htimesOut, hfirst⟩
      · exact hafter hstill
      · exact .answered status data (hfirst.moves hmoves)
      · exact .timedOut [] ops input d rfl rfl ⟨rfl, rfl⟩ htimesOut (hfirst.moves hmoves)

private theorem Fate.still_or_called {ops : List (Op cfg H)} {deadline : ℕ}
    (h : Fate react d ops d' slot cmdId handler deadline) :
    SlotStill d d' slot ∨ Called d d' slot cmdId handler := by
  rcases h with h | ⟨status, data, h⟩ | ⟨-, -, -, -, -, -, -, -, h⟩
  · exact Or.inl h
  · exact Or.inr ⟨status, data, _, h⟩
  · exact Or.inr ⟨_, _, _, h⟩

private theorem two_le_elapsedMillis {timer : SerialPacketsTimer} {now later : ℕ}
    (hshort : (timer.elapsedMillis now).toNat < 2) (hlater : now + 2 ≤ later)
    (hspan : later < now + 2 ^ 31) : 2 ≤ (timer.elapsedMillis later).toNat := by
  obtain ⟨δ, rfl⟩ := Nat.exists_eq_add_of_le (Nat.le_of_add_right_le hlater)
  have hsum : timer.elapsedMillis (now + δ) = timer.elapsedMillis now + UInt32.ofNat δ := by
    rw [SerialPacketsTimer.elapsedMillis, SerialPacketsTimer.elapsedMillis, millis, millis,
      UInt32.ofNat_add]
    grind
  have hδ : (UInt32.ofNat δ).toNat = δ := UInt32.toNat_ofNat_of_lt' (by unfold UInt32.size; omega)
  rw [hsum, UInt32.toNat_add, hδ, Nat.mod_eq_of_lt (by omega)]
  omega

section Overdue

variable (hwait : Waiting d since slot cmdId handler timeoutMillis)
  (hdue : since + timeoutMillis.toNat ≤ d.now) (hspan : d'.now < since + 2 ^ 31)

include hwait hdue hspan

/-- After the timeout, a call of `loop` calls the handler, or it leaves a cleanup timer that shows
less than two milliseconds. -/
private theorem called_or_short_of_loop {input : LoopInput} (hloop : d.loop react input = some d') :
    Called d d' slot cmdId handler ∨ SlotStill d d' slot ∧ d'.cleanupTimer = d.cleanupTimer ∧
      (d'.cleanupTimer.elapsedMillis d'.now).toNat < 2 := by
  rw [loop_of_begun react hwait.begun, Option.map_eq_some_iff] at hloop
  obtain ⟨m, hrx, rfl⟩ := hloop
  have hpasses := reads_loopRx? react hrx
  have hcleanup := moves_loopCleanup react m input.resetMillis input.sweepMillis
  have hle := Moves.now_le (Strides.moves (strides_of_passes hpasses))
  rcases slot_passes hpasses hwait.cmdId_eq hwait.pending hwait.responseHandler_eq with
    hstill | ⟨status, data, hfirst⟩
  · rcases slot_loopCleanup (hwait.passes hpasses hstill) hspan with
      ⟨hstill', hskipped⟩ | ⟨-, hfirst⟩
    · have hshort : (m.cleanupTimer.elapsedMillis m.now).toNat < 2 := by
        by_contra hpass
        have hearly := hskipped (Nat.le_of_not_lt hpass)
        omega
      rw [loopCleanup, if_pos hshort]
      exact Or.inr ⟨hstill, cleanupTimer_passes hpasses, hshort⟩
    · exact Or.inl ⟨_, _, _, hfirst.of_still hstill⟩
  · exact Or.inl ⟨status, data, _, hfirst.moves hcleanup⟩

private theorem called_or_timer_of_step {op : Op cfg H} (hstep : step react d op = some d') :
    Called d d' slot cmdId handler ∨ SlotStill d d' slot ∧ d'.cleanupTimer = d.cleanupTimer := by
  by_cases hop : ∀ input, op ≠ .loop input
  · refine Or.inr ⟨slotStill_step hop hstep hwait.cmdId_ne, ?_⟩
    cases op with
    | begin =>
      rw [← Option.some_inj.mp hstep, Device.begin, if_pos hwait.begun]
      rfl
    | sendCommand endpoint data responseHandler timeoutMillis tx =>
      rw [← Option.some_inj.mp hstep]
      exact leftAlone_cleanupTimer.sendCommand _ _ _ _ _ _
    | sendMessage endpoint data tx =>
      rw [← Option.some_inj.mp hstep]
      exact leftAlone_cleanupTimer.sendMessage _ _ _ _
    | delay millis => rw [← Option.some_inj.mp hstep]; rfl
    | loop input => exact absurd rfl (hop input)
  · push Not at hop
    obtain ⟨input, rfl⟩ := hop
    rcases called_or_short_of_loop hwait hdue hspan hstep with hcalled | ⟨hstill, htimer, -⟩
    · exact Or.inl hcalled
    · exact Or.inr ⟨hstill, htimer⟩

end Overdue

private theorem called_or_timer_of_run {ops : List (Op cfg H)}
    (hwait : Waiting d since slot cmdId handler timeoutMillis)
    (hdue : since + timeoutMillis.toNat ≤ d.now) (hspan : d'.now < since + 2 ^ 31)
    (hrun : Runs.run (step react) d ops = some d') :
    Called d d' slot cmdId handler ∨ SlotStill d d' slot ∧ d'.cleanupTimer = d.cleanupTimer := by
  induction ops generalizing d with
  | nil =>
    rw [Runs.run_nil, Option.some_inj] at hrun
    exact Or.inr (hrun ▸ ⟨⟨rfl, rfl⟩, rfl⟩)
  | cons op ops ih =>
    obtain ⟨m, hstep, hrest⟩ := Runs.run_cons_eq_some.mp hrun
    obtain ⟨bytes, hmoves⟩ := moves_step react hstep
    obtain ⟨bytes', hmoves'⟩ := moves_run react hrest
    have hle := Moves.now_le hmoves
    have hle' := Moves.now_le hmoves'
    rcases called_or_timer_of_step hwait hdue (hle'.trans_lt hspan) hstep with
      hcalled | ⟨hstill, htimer⟩
    · exact Or.inl (hcalled.moves hmoves')
    · rcases ih (hwait.moves hmoves hstill) (hdue.trans hle) hrest with
        hcalled | ⟨hstill', htimer'⟩
      · exact Or.inl (hcalled.of_still hstill)
      · exact Or.inr ⟨hstill.trans hstill', htimer'.trans htimer⟩

/-- **Timeouts are served.** Let `sendCommand` return `true` to a program that calls it between two
operations, for a command with a timeout, and let the timeout be over before some call of `loop`
that comes back. By the time a second call comes back that is made at least two milliseconds after
the first one has returned, whatever the program does in between, the handler of the command has
been called, with its id, as the first thing that happened to its slot: for all callbacks, streams
and input, as long as the command is less than half a turn of the clock old. -/
theorem called_of_two_loops (react : ℕ → Reaction cfg H) (pre mid : List (Op cfg H))
    (first last : LoopInput) (d : Device cfg H) {d₀ d₁ d₂ d₃ : Device cfg H} (endpoint : UInt8)
    (data : SerialPacketsData cfg) (responseHandler : Option H) (timeoutMillis : UInt16)
    (tx : TxAnswers)
    (hok : (d.sendCommand endpoint data responseHandler timeoutMillis tx).1.ok = true)
    (hpre : Runs.run (step react)
      (d.sendCommand endpoint data responseHandler timeoutMillis tx).2 pre = some d₀)
    (hdue : (d.sendCommand endpoint data responseHandler timeoutMillis tx).2.now
      + timeoutMillis.toNat ≤ d₀.now)
    (hfirst : d₀.loop react first = some d₁) (hmid : Runs.run (step react) d₁ mid = some d₂)
    (hgap : d₁.now + 2 ≤ d₂.now) (hlast : d₂.loop react last = some d₃)
    (hspan : d₃.now
      < (d.sendCommand endpoint data responseHandler timeoutMillis tx).2.now + 2 ^ 31) :
    let sent := d.sendCommand endpoint data responseHandler timeoutMillis tx
    ∃ slot handler, responseHandler = some handler ∧
      Called sent.2 d₃ slot sent.1.cmdId handler := by
  intro sent
  obtain ⟨slot, handler, hhandler, hwait⟩ := d.exists_waiting_sendCommand hok
  refine ⟨slot, handler, hhandler, ?_⟩
  obtain ⟨_, hmoves₀⟩ := moves_run react hpre
  obtain ⟨_, hmoves₁⟩ := moves_step react (show step react d₀ (.loop first) = some d₁ from hfirst)
  obtain ⟨_, hmoves₂⟩ := moves_run react hmid
  obtain ⟨_, hmoves₃⟩ := moves_step react (show step react d₂ (.loop last) = some d₃ from hlast)
  have hle₁ := Moves.now_le hmoves₁
  have hle₂ := Moves.now_le hmoves₂
  have hle₃ := Moves.now_le hmoves₃
  -- either the handler is called on the way, or the slot still waits at the next stage
  rcases (fate_run hpre hwait (by omega)).still_or_called with hstill₀ | hcalled
  swap
  · exact ((hcalled.moves hmoves₁).moves hmoves₂).moves hmoves₃
  refine Called.of_still hstill₀ ?_
  have hwait₀ := hwait.moves hmoves₀ hstill₀
  rcases called_or_short_of_loop hwait₀ hdue (by omega) hfirst with
    hcalled | ⟨hstill₁, -, hshort⟩
  · exact (hcalled.moves hmoves₂).moves hmoves₃
  refine Called.of_still hstill₁ ?_
  have hwait₁ := hwait₀.moves hmoves₁ hstill₁
  rcases called_or_timer_of_run hwait₁ (by omega) (by omega) hmid with hcalled | ⟨hstill₂, htimer⟩
  · exact hcalled.moves hmoves₃
  refine Called.of_still hstill₂ ?_
  have hwait₂ := hwait₁.moves hmoves₂ hstill₂
  rcases called_or_short_of_loop hwait₂ (by omega) hspan hlast with hcalled | ⟨-, htimer', hshort'⟩
  · exact hcalled
  · -- the first call left a timer that must have made the second one run a pass
    rw [htimer', htimer] at hshort'
    have hlong := two_le_elapsedMillis hshort (hgap.trans hle₃) (by omega)
    omega

/-- A command with a timeout of one second, after one second and two calls of `loop`. -/
theorem called_of_two_loops_overdue :
    let sent := begunClient.sendCommand 0 noBytes (some ()) 1000 ⟨0, 0, 100, 100, 0⟩
    ∃ d₁ d₃, (sent.2.wait 1000).loop idle ⟨0, [], 0, 0⟩ = some d₁ ∧
      (d₁.wait 2).loop idle ⟨0, [], 0, 0⟩ = some d₃ ∧
      ∃ slot handler, some () = some handler ∧ Called sent.2 d₃ slot sent.1.cmdId handler := by
  intro sent
  have hfirst : (sent.2.wait 1000).loop idle ⟨0, [], 0, 0⟩
      = some ((sent.2.wait 1000).loopCleanup idle 0 0) :=
    loop_of_begun idle (by decide +kernel) ⟨0, [], 0, 0⟩
  have hlast : (((sent.2.wait 1000).loopCleanup idle 0 0).wait 2).loop idle ⟨0, [], 0, 0⟩
      = some ((((sent.2.wait 1000).loopCleanup idle 0 0).wait 2).loopCleanup idle 0 0) :=
    loop_of_begun idle (by decide +kernel) ⟨0, [], 0, 0⟩
  exact ⟨_, _, hfirst, hlast, called_of_two_loops idle [.delay 1000] [.delay 2] ⟨0, [], 0, 0⟩
    ⟨0, [], 0, 0⟩ begunClient 0 noBytes (some ()) 1000 ⟨0, 0, 100, 100, 0⟩ (by decide +kernel) rfl
    (le_refl _) hfirst rfl (le_refl _) hlast (by decide +kernel)⟩

end Device

end SerialPackets

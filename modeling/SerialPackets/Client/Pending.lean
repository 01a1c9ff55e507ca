import Mathlib.Data.Fintype.Basic
import SerialPackets.Client.SendResults
import SerialPackets.Client.Slots

/-!
# Every accepted command is called once

The history of a slot is a sequence of *rounds*: a command is accepted into the free slot, its
handler is called, with the id and for the handler the command was accepted with, and the slot is
released. Between operations the last round may be open, and then the context holds its command.
This is an invariant of every move, callbacks that send included, so that accepted commands are
never lost, never called twice, and never dropped without a call.
-/

namespace SerialPackets

variable {cfg : Config} {H : Type*}

namespace CommandContext

/-- What a context holds: nothing, or a command with its handler. -/
def Holds (context : CommandContext H) : Option (UInt32 × H) → Prop
  | none => context.cmdId = 0
  | some (cmdId, handler) =>
    context.cmdId = cmdId ∧ cmdId ≠ 0 ∧ context.responseHandler = some handler

/-- The command that is in a context. -/
def pending? (context : CommandContext H) : Option (UInt32 × H) :=
  if context.cmdId = 0 then none else context.responseHandler.map fun handler ↦
    (context.cmdId, handler)

private theorem Holds.eq_pending? {context : CommandContext H} {pending : Option (UInt32 × H)}
    (h : context.Holds pending) : pending = context.pending? := by
  rw [pending?]
  obtain _ | ⟨cmdId, handler⟩ := pending
  · exact (if_pos h).symm
  · obtain ⟨rfl, hne, hhandler⟩ := h
    rw [if_neg hne, hhandler, Option.map_some]

end CommandContext

/-- The command that an event accepts. -/
def Event.accepted? : Event cfg H → Option (UInt32 × H)
  | .accepted _ cmdId handler => some (cmdId, handler)
  | _ => none

/-- The command whose handler an event calls. -/
def Event.called? : Event cfg H → Option (UInt32 × H)
  | .responseCall _ handler cmdId _ _ _ => some (cmdId, handler)
  | _ => none

/-- The histories of a slot, with the command that is pending at the end. -/
inductive SlotHistory (slot : Fin cfg.maxPendingCommands) :
    List (Event cfg H) → Option (UInt32 × H) → Prop
  | nil : SlotHistory slot [] none
  | accepted {history : List (Event cfg H)} (cmdId : UInt32) (handler : H)
      (h : SlotHistory slot history none) :
      SlotHistory slot (history ++ [.accepted slot cmdId handler]) (some (cmdId, handler))
  | settled {history : List (Event cfg H)} {cmdId : UInt32} {handler : H} (status : UInt8)
      (data : List UInt8) (origin : Origin) (h : SlotHistory slot history (some (cmdId, handler))) :
      SlotHistory slot (history
        ++ [.responseCall slot handler cmdId status data origin, .released slot]) none

/-- The commands accepted into a slot are those that have been called, in the same order, and then
the pending one. -/
private theorem SlotHistory.accepted_eq {slot : Fin cfg.maxPendingCommands}
    {history : List (Event cfg H)}
    {pending : Option (UInt32 × H)} (h : SlotHistory slot history pending) :
    history.filterMap Event.accepted?
      = history.filterMap Event.called? ++ pending.toList := by
  induction h with
  | nil => rfl
  | accepted cmdId handler _ ih =>
    rw [List.filterMap_append, List.filterMap_append, ih]
    simp [Event.accepted?, Event.called?]
  | settled status data origin _ ih =>
    rw [List.filterMap_append, List.filterMap_append, ih]
    simp [List.filterMap_cons, Event.accepted?, Event.called?]

namespace Device

variable {d d' : Device cfg H} {slot : Fin cfg.maxPendingCommands}

/-! ## The invariant -/

/-- The context of a slot agrees with the history of the slot. -/
def SlotAccounts (d : Device cfg H) (slot : Fin cfg.maxPendingCommands) : Prop :=
  ∃ pending, (d.commandContexts slot).Holds pending ∧ SlotHistory slot (d.slotTrace slot) pending

private theorem SlotAccounts.history_of_free (h : d.SlotAccounts slot)
    (hfree : (d.commandContexts slot).cmdId = 0) : SlotHistory slot (d.slotTrace slot) none := by
  obtain ⟨_ | ⟨cmdId, handler⟩, hholds, hhistory⟩ := h
  · exact hhistory
  · exact absurd (hholds.1.symm.trans hfree) hholds.2.1

theorem SlotAccounts.exists_handler (h : d.SlotAccounts slot)
    (hpending : (d.commandContexts slot).cmdId ≠ 0) :
    ∃ handler, (d.commandContexts slot).responseHandler = some handler ∧
      SlotHistory slot (d.slotTrace slot) (some ((d.commandContexts slot).cmdId, handler)) := by
  obtain ⟨_ | ⟨cmdId, handler⟩, hholds, hhistory⟩ := h
  · exact absurd hholds hpending
  · obtain ⟨rfl, -, hhandler⟩ := hholds
    exact ⟨handler, hhandler, hhistory⟩

theorem SlotGrows.accounts (hgrows : SlotGrows d d' slot) (h : d.SlotAccounts slot) :
    d'.SlotAccounts slot := by
  rcases hgrows with ⟨htrace, hcontext⟩ | ⟨hfree, cmdId, handler, hne, htrace, hid, hhandler⟩
  · obtain ⟨pending, hholds, hhistory⟩ := h
    exact ⟨pending, hcontext ▸ hholds, htrace ▸ hhistory⟩
  · refine ⟨some (cmdId, handler), ⟨hid, hne, hhandler⟩, ?_⟩
    rw [htrace]
    exact .accepted cmdId handler (h.history_of_free hfree)

private theorem slotAccounts_call {d₂ : Device cfg H} {handler : H} {cmdId : UInt32}
    {status : UInt8} {data : List UInt8} {origin : Origin} {called : Fin cfg.maxPendingCommands}
    (hid : (d.commandContexts called).cmdId = cmdId) (hpending : cmdId ≠ 0)
    (hhandler : (d.commandContexts called).responseHandler = some handler)
    (hbody : Sends (d.emit (.responseCall called handler cmdId status data origin)) d₂)
    (h : d.SlotAccounts slot) : (d₂.clearContext called).SlotAccounts slot := by
  by_cases hslot : slot = called
  · subst hslot
    obtain ⟨htrace, hclear⟩ := slotTrace_call (hid ▸ hpending) hbody
    obtain ⟨handler', hhandler', hhistory⟩ := h.exists_handler (hid ▸ hpending)
    rw [hhandler, Option.some_inj] at hhandler'
    rw [hid, ← hhandler'] at hhistory
    refine ⟨none, ?_, ?_⟩
    · rw [hclear]
      rfl
    · rw [htrace]
      exact .settled status data origin hhistory
  · exact (slotGrows_call hslot hbody).accounts h

theorem slotGrows_emit {e : Event cfg H} (he : e.slot? = none) : SlotGrows d (d.emit e) slot :=
  Or.inl (slotStill_of_trace rfl (he ▸ (Option.some_ne_none slot).symm) rfl)

/-- **One move preserves the invariant.** -/
theorem Move.slotAccounts {bytes : List UInt8} (hmove : Move d bytes d')
    (h : ∀ slot, d.SlotAccounts slot) : ∀ slot, d'.SlotAccounts slot := by
  intro slot
  cases hmove with
  | send h' => exact (h'.slotGrows slot).accounts (h slot)
  | begin hbegun =>
    refine SlotGrows.accounts (Or.inl ?_) (h slot)
    rw [begin_of_not_begun hbegun]
    exact slotStill_of_trace (e := .begun d.now) rfl (by simp [Event.slot?]) rfl
  | byte hbyte => exact SlotGrows.accounts (Or.inl hbyte.slotStill) (h slot)
  | @command d₁ d₂ _ _ endpoint status cmdId data response _ _ hbyte _ hbody hresponse =>
    have hcall : SlotGrows d (d₁.emit (.commandCall cmdId endpoint data)) slot :=
      SlotGrows.trans (Or.inl hbyte.slotStill) (slotGrows_emit rfl)
    have hreturn :
        SlotGrows d (d₂.emit (.commandReturn cmdId endpoint data status response)) slot :=
      (hcall.trans (hbody.slotGrows slot)).trans (slotGrows_emit rfl)
    exact (hreturn.trans (Or.inl hresponse.slotStill)).accounts (h slot)
  | @message d₁ _ _ endpoint data hbyte _ hbody =>
    have hcall : SlotGrows d (d₁.emit (.messageCall endpoint data)) slot :=
      SlotGrows.trans (Or.inl hbyte.slotStill) (slotGrows_emit rfl)
    exact (hcall.trans (hbody.slotGrows slot)).accounts (h slot)
  | response hbyte _ hid hpending hhandler hbody =>
    rw [← hbyte.contexts] at hid hhandler
    exact slotAccounts_call hid hpending hhandler hbody
      (SlotGrows.accounts (Or.inl hbyte.slotStill) (h slot))
  | timeout hid hpending hhandler hbody =>
    exact slotAccounts_call hid hpending hhandler hbody (h slot)
  | @orphan orphan hpending hhandler =>
    -- a context that is not free has a handler
    obtain ⟨handler, hhandler', -⟩ := (h orphan).exists_handler hpending
    exact absurd (hhandler.symm.trans hhandler') (Option.some_ne_none handler).symm

theorem IsFresh.slotAccounts (h : IsFresh d) (slot : Fin cfg.maxPendingCommands) :
    d.SlotAccounts slot := by
  refine ⟨none, ?_, ?_⟩
  · rw [h.contexts slot]
    rfl
  · rw [slotTrace, h.trace]
    exact .nil

theorem Moves.slotAccounts {bytes : List UInt8} (h : Moves d bytes d') (hfresh : IsFresh d) :
    ∀ slot, d'.SlotAccounts slot :=
  Runs.Reaches.invariant h (fun hmove ↦ hmove.slotAccounts) hfresh.slotAccounts

/-! ## The accounts of a client -/

/-- The commands accepted so far, with their handlers. -/
def acceptances (d : Device cfg H) : List (UInt32 × H) := d.history Event.accepted?

/-- The commands whose handlers have been called so far, with the handlers that were called. -/
def handlerCalls (d : Device cfg H) : List (UInt32 × H) := d.history Event.called?

/-- The commands in the pending table. -/
def pendingCommands (d : Device cfg H) : Multiset (UInt32 × H) :=
  ∑ slot, ((d.commandContexts slot).pending?.toList : Multiset (UInt32 × H))

/-- A command is accepted when `sendCommand` returns `true`, with the id it returns and the handler
it was given. -/
theorem acceptances_sendCommand (d : Device cfg H) (endpoint : UInt8) (data : SerialPacketsData cfg)
    (responseHandler : Option H) (timeoutMillis : UInt16) (tx : TxAnswers) :
    let result := d.sendCommand endpoint data responseHandler timeoutMillis tx
    result.2.acceptances = d.acceptances
      ++ if result.1.ok then responseHandler.toList.map fun handler ↦ (result.1.cmdId, handler)
        else [] := by
  have hattempt {d₁ : Device cfg H} {p : Packet (List UInt8)} {x : Transmission}
      (h : Transmits d.assignCmdId d₁ d.now p tx x) : d₁.acceptances = d.acceptances := by
    rw [acceptances, h.history Event.accepted?, history_assignCmdId]
    exact (List.append_nil _).trans (List.append_nil _)
  rcases d.sendCommand_cases endpoint data responseHandler timeoutMillis tx with
    ⟨-, hfailed, hlogs⟩ | ⟨-, slot, handler, d₁, x, -, hhandler, -, htx, hrest⟩
  · dsimp only
    rw [hfailed, acceptances, hlogs.quiet.toStill.history]
    exact (List.append_nil _).symm
  · rcases hrest with ⟨-, hfailed, hlogs⟩ | ⟨-, hsuccess⟩
    · dsimp only
      rw [hfailed, acceptances, hlogs.quiet.toStill.history]
      exact (hattempt htx).trans (List.append_nil _).symm
    · dsimp only
      rw [hsuccess, ← hattempt htx, hhandler]
      exact history_setUpContext Event.accepted? _ _ _ _ _

/-- Every accepted command is in the table or has been called, exactly once. -/
structure CallsOnce (d : Device cfg H) : Prop where
  /-- The commands accepted are those called and those pending, with multiplicity. -/
  partition : (d.acceptances : Multiset (UInt32 × H)) = d.handlerCalls + d.pendingCommands
  /-- A slot goes through rounds of acceptance, call and release, of which the last may be open. -/
  rounds : ∀ slot, SlotHistory slot (d.slotTrace slot) (d.commandContexts slot).pending?
  /-- A context that is not free has a handler. -/
  handlers : ∀ slot, (d.commandContexts slot).cmdId ≠ 0 →
    (d.commandContexts slot).responseHandler ≠ none

theorem callsOnce_of_slotAccounts (h : ∀ slot, d.SlotAccounts slot) : CallsOnce d := by
  have hrounds (slot : Fin cfg.maxPendingCommands) :
      SlotHistory slot (d.slotTrace slot) (d.commandContexts slot).pending? := by
    obtain ⟨pending, hholds, hhistory⟩ := h slot
    exact hholds.eq_pending? ▸ hhistory
  refine ⟨?_, hrounds, fun slot hpending ↦ ?_⟩
  · have haccepted : ∀ e : Event cfg H, e.accepted? ≠ none → e.slot? ≠ none := by
      rintro (_ | _ | _ | _ | _ | _ | _ | _ | _) <;> simp [Event.accepted?, Event.slot?]
    have hcalled : ∀ e : Event cfg H, e.called? ≠ none → e.slot? ≠ none := by
      rintro (_ | _ | _ | _ | _ | _ | _ | _ | _) <;> simp [Event.called?, Event.slot?]
    rw [acceptances, handlerCalls, pendingCommands, history, history,
      Runs.coe_filterMap_eq_sum haccepted,
      Runs.coe_filterMap_eq_sum hcalled, ← Finset.sum_add_distrib]
    exact Finset.sum_congr rfl fun slot _ ↦ congrArg _ (hrounds slot).accepted_eq
  · obtain ⟨handler, hhandler, -⟩ := (h slot).exists_handler hpending
    rw [hhandler]
    exact Option.some_ne_none handler

theorem CallsOnce.accepted_of_call (h : CallsOnce d) {cmdId : UInt32} {handler : H}
    {status : UInt8} {data : List UInt8} {origin : Origin}
    (hcall : .responseCall slot handler cmdId status data origin ∈ d.trace) :
    .accepted slot cmdId handler ∈ d.trace := by
  have hcalled : (cmdId, handler) ∈ (d.slotTrace slot).filterMap Event.called? := by
    refine List.mem_filterMap.mpr ⟨_, List.mem_filter.mpr ⟨hcall, ?_⟩, rfl⟩
    simp [Event.slot?]
  have haccepted : (cmdId, handler) ∈ (d.slotTrace slot).filterMap Event.accepted? := by
    rw [(h.rounds slot).accepted_eq]
    exact List.mem_append_left _ hcalled
  obtain ⟨e, he, heq⟩ := List.mem_filterMap.mp haccepted
  obtain ⟨hmem, hslot⟩ := List.mem_filter.mp he
  cases e with
  | accepted slot' cmdId' handler' =>
    obtain ⟨rfl, rfl⟩ := Prod.mk.inj (Option.some_inj.mp heq)
    obtain rfl : slot' = slot := by simpa [Event.slot?] using hslot
    exact hmem
  | _ => exact absurd heq (Option.some_ne_none _).symm

variable {d₀ : Device cfg H}

/-- **Every accepted command is called exactly once**, with its own handler and id, or is still in
the table, after every run of a client: for all incoming bytes, clocks and streams, and for all
callbacks, those that send commands while their own slot waits to be cleared included. -/
theorem callsOnce_of_run (react : ℕ → Reaction cfg H) (ops : List (Op cfg H)) (hfresh : IsFresh d₀)
    (hrun : Runs.run (step react) d₀ ops = some d) : CallsOnce d := by
  obtain ⟨bytes, hmoves⟩ := moves_run react hrun
  exact callsOnce_of_slotAccounts (hmoves.slotAccounts hfresh)

/-- Handlers of which the second one that is called sends another command. -/
def retrying : ℕ → Reaction Config.default Unit
  | 1 => ⟨[.sendCommand 0 noBytes (some ()) 1000 ⟨0, 0, 100, 100, 0⟩], ⟨0, 0, 0, 0, 0⟩⟩
  | _ => idle 0

/-- Two commands, the response to the first, and the timeout of the second. -/
def answeredAndTimedOut : List (Op Config.default Unit) :=
  [.begin, .sendCommand 0 noBytes (some ()) 10 ⟨0, 0, 100, 100, 0⟩,
    .sendCommand 0 noBytes (some ()) 10 ⟨0, 0, 100, 100, 0⟩,
    .loop ⟨10, [⟨0, packetFlag :: (hdlc.stuff (Packet.response 1 7 []).body ++ [packetFlag])⟩],
      0, 0⟩,
    .delay 10, .loop ⟨0, [], 0, 0⟩]

private theorem isSome_run_answeredAndTimedOut :
    (Runs.run (step retrying) (create none none 0) answeredAndTimedOut).isSome := by
  decide +kernel

theorem callsOnce_of_run_answeredAndTimedOut :
    ∃ d, Runs.run (step retrying) (create none none 0) answeredAndTimedOut = some d ∧
      d.acceptances = [(1, ()), (2, ()), (3, ())] ∧ d.handlerCalls = [(1, ()), (2, ())] ∧
      CallsOnce d := by
  have hrun := (Option.some_get isSome_run_answeredAndTimedOut).symm
  have hcalls : (Option.get _ isSome_run_answeredAndTimedOut).acceptances
        = [(1, ()), (2, ()), (3, ())] ∧
      (Option.get _ isSome_run_answeredAndTimedOut).handlerCalls = [(1, ()), (2, ())] := by
    decide +kernel
  exact ⟨_, hrun, hcalls.1, hcalls.2,
    callsOnce_of_run retrying answeredAndTimedOut (isFresh_create none none 0) hrun⟩

end Device

end SerialPackets

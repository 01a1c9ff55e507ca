import SerialPackets.Client.Moves

/-!
# Slots of the pending table

A slot of the pending table has a history of its own: a command is accepted into it, the handler of
that command is called, the slot is released. While a callback runs, all it can do to a slot is to
fill it if it is free. A slot whose handler is being called is not free, so nothing the handler
sends can end up in the slot that will be cleared when it returns.
-/

namespace SerialPackets

variable {cfg : Config} {H : Type*}

/-- The slot an event is about. -/
def Event.slot? : Event cfg H → Option (Fin cfg.maxPendingCommands)
  | .accepted slot _ _ => some slot
  | .responseCall slot _ _ _ _ _ => some slot
  | .released slot => some slot
  | _ => none

namespace Device

variable {d d' m : Device cfg H} {slot : Fin cfg.maxPendingCommands}

/-- The history of a slot. -/
def slotTrace (d : Device cfg H) (slot : Fin cfg.maxPendingCommands) : List (Event cfg H) :=
  d.trace.filter fun e ↦ e.slot? = some slot

private theorem slotTrace_of_trace {e : Event cfg H} (htrace : d'.trace = d.trace ++ [e])
    (he : e.slot? ≠ some slot) : d'.slotTrace slot = d.slotTrace slot := by
  rw [slotTrace, htrace, List.filter_append, List.filter_cons_of_neg (by simpa using he),
    List.filter_nil, List.append_nil]
  rfl

private theorem slotTrace_of_trace_self {e : Event cfg H} (htrace : d'.trace = d.trace ++ [e])
    (he : e.slot? = some slot) : d'.slotTrace slot = d.slotTrace slot ++ [e] := by
  rw [slotTrace, htrace, List.filter_append, List.filter_cons_of_pos (by simpa using he),
    List.filter_nil]
  rfl

/-! ## What a callback does to a slot -/

/-- Nothing has happened to the slot. -/
def SlotStill (d d' : Device cfg H) (slot : Fin cfg.maxPendingCommands) : Prop :=
  d'.slotTrace slot = d.slotTrace slot ∧ d'.commandContexts slot = d.commandContexts slot

/-- A command has been accepted into the slot, which was free. -/
def SlotFilled (d d' : Device cfg H) (slot : Fin cfg.maxPendingCommands) : Prop :=
  (d.commandContexts slot).cmdId = 0 ∧ ∃ cmdId handler, cmdId ≠ 0 ∧
    d'.slotTrace slot = d.slotTrace slot ++ [.accepted slot cmdId handler] ∧
    (d'.commandContexts slot).cmdId = cmdId ∧
    (d'.commandContexts slot).responseHandler = some handler

/-- The slot is as it was, or has been filled. -/
def SlotGrows (d d' : Device cfg H) (slot : Fin cfg.maxPendingCommands) : Prop :=
  SlotStill d d' slot ∨ SlotFilled d d' slot

theorem SlotGrows.refl (d : Device cfg H) (slot : Fin cfg.maxPendingCommands) :
    SlotGrows d d slot := Or.inl ⟨rfl, rfl⟩

theorem SlotGrows.still_of_pending (h : SlotGrows d d' slot)
    (hpending : (d.commandContexts slot).cmdId ≠ 0) : SlotStill d d' slot :=
  h.resolve_right fun hfilled ↦ hpending hfilled.1

theorem SlotGrows.trans (h₁ : SlotGrows d m slot) (h₂ : SlotGrows m d' slot) :
    SlotGrows d d' slot := by
  rcases h₁ with ⟨htrace, hcontext⟩ | ⟨hfree, cmdId, handler, hne, htrace, hid, hhandler⟩
  · rw [SlotGrows, SlotStill, SlotFilled, htrace, hcontext] at h₂
    exact h₂
  · obtain ⟨htrace', hcontext'⟩ := h₂.still_of_pending (hid ▸ hne)
    exact Or.inr ⟨hfree, cmdId, handler, hne, htrace'.trans htrace, hcontext' ▸ hid,
      hcontext' ▸ hhandler⟩

theorem slotStill_of_trace {e : Event cfg H} (htrace : d'.trace = d.trace ++ [e])
    (he : e.slot? ≠ some slot) (hcontexts : d'.commandContexts = d.commandContexts) :
    SlotStill d d' slot :=
  ⟨slotTrace_of_trace htrace he, congrFun hcontexts slot⟩

theorem Still.slotStill (h : Still d d') : SlotStill d d' slot :=
  ⟨by rw [slotTrace, slotTrace, h.trace], congrFun h.contexts slot⟩

theorem Transmits.slotStill {start : ℕ} {p : Packet (List UInt8)} {tx : TxAnswers}
    {x : Transmission} (h : Transmits d d' start p tx x) : SlotStill d d' slot :=
  slotStill_of_trace h.trace (by simp [Event.slot?]) h.contexts

private theorem slotStill_assignCmdId : SlotStill d d.assignCmdId slot :=
  slotStill_of_trace (e := .idAssigned (nextCmdId d.cmdIdCounter)) rfl (by simp [Event.slot?]) rfl

private theorem slotGrows_setUpContext (hfree : (d.commandContexts slot).cmdId = 0) {cmdId : UInt32}
    (hne : cmdId ≠ 0) (handler : H) (timeoutMillis : UInt16) (other : Fin cfg.maxPendingCommands) :
    SlotGrows d (d.setUpContext slot cmdId handler timeoutMillis) other := by
  by_cases hother : other = slot
  · rw [hother]
    refine Or.inr ⟨hfree, cmdId, handler, hne, slotTrace_of_trace_self rfl rfl, ?_, ?_⟩
    · rw [commandContexts_setUpContext, Function.update_self]
    · rw [commandContexts_setUpContext, Function.update_self]
  · refine Or.inl ⟨slotTrace_of_trace (e := .accepted slot cmdId handler) rfl ?_, ?_⟩
    · simpa [Event.slot?] using Ne.symm hother
    · rw [commandContexts_setUpContext, Function.update_of_ne hother]

theorem Send.slotGrows (h : Send d d') (slot : Fin cfg.maxPendingCommands) :
    SlotGrows d d' slot := by
  have hassign : SlotGrows d d.assignCmdId slot := Or.inl slotStill_assignCmdId
  cases h with
  | quiet h => exact Or.inl h.toStill.slotStill
  | message h => exact Or.inl h.slotStill
  | command h _ => exact hassign.trans (Or.inl h.slotStill)
  | @acceptedCommand d₁ _ _ _ _ h _ free hfree handler timeoutMillis =>
    have hfree' : (d₁.commandContexts free).cmdId = 0 := by
      rw [h.contexts]
      exact hfree
    exact (hassign.trans (Or.inl h.slotStill)).trans
      (slotGrows_setUpContext hfree' (nextCmdId_ne_zero _) handler timeoutMillis slot)

/-- **A callback can only fill free slots.** -/
theorem Sends.slotGrows (h : Sends d d') (slot : Fin cfg.maxPendingCommands) :
    SlotGrows d d' slot := by
  induction h with
  | refl => exact .refl d slot
  | tail _ hsend ih => exact ih.trans (hsend.slotGrows slot)

/-! ## Calling the handler of a slot -/

/-- **From the call of its handler to its release**, a slot goes through nothing else: whatever the
handler sends goes to other slots. -/
theorem slotTrace_call {d₂ : Device cfg H} {handler : H} {cmdId : UInt32} {status : UInt8}
    {data : List UInt8} {origin : Origin} (hpending : (d.commandContexts slot).cmdId ≠ 0)
    (hbody : Sends (d.emit (.responseCall slot handler cmdId status data origin)) d₂) :
    (d₂.clearContext slot).slotTrace slot = d.slotTrace slot
        ++ [.responseCall slot handler cmdId status data origin, .released slot] ∧
      (d₂.clearContext slot).commandContexts slot = .clear := by
  obtain ⟨htrace, -⟩ := (hbody.slotGrows slot).still_of_pending hpending
  constructor
  · rw [slotTrace_of_trace_self (e := .released slot) rfl rfl, htrace,
      slotTrace_of_trace_self (e := .responseCall slot handler cmdId status data origin) rfl rfl,
      List.append_assoc]
    rfl
  · rw [commandContexts_clearContext, Function.update_self]

theorem slotStill_clearContext {other : Fin cfg.maxPendingCommands} (hother : other ≠ slot) :
    SlotStill d (d.clearContext slot) other := by
  refine ⟨slotTrace_of_trace (e := .released slot) rfl ?_, ?_⟩
  · simpa [Event.slot?] using Ne.symm hother
  · rw [commandContexts_clearContext, Function.update_of_ne hother]

theorem slotGrows_call {d₂ : Device cfg H} {handler : H} {cmdId : UInt32} {status : UInt8}
    {data : List UInt8} {origin : Origin} {other : Fin cfg.maxPendingCommands}
    (hother : other ≠ slot)
    (hbody : Sends (d.emit (.responseCall slot handler cmdId status data origin)) d₂) :
    SlotGrows d (d₂.clearContext slot) other := by
  have hcall : SlotGrows d (d.emit (.responseCall slot handler cmdId status data origin)) other :=
    Or.inl (slotStill_of_trace rfl (by simpa [Event.slot?] using Ne.symm hother) rfl)
  exact (hcall.trans (hbody.slotGrows other)).trans (Or.inl (slotStill_clearContext hother))

end Device

end SerialPackets

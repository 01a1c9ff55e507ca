import SerialPackets.Client.SendResults
import SerialPackets.Client.Slots

/-!
# Timeouts

A context stores the time at which its command expires, modulo the turn of the clock, and
`loop_cleanup` compares it with the clock by the sign of a 32-bit difference. The comparison is
exact as long as the command is less than half a turn old. The sweep goes over the table once and
handles each slot at its turn, whatever the handlers called before it have put into other slots.
-/

namespace SerialPackets

variable {cfg : Config} {H : Type*}

namespace Device

/-! ## The comparison -/

/-- What an accepted command leaves in its slot, `sendCommand` having read the clock just before it
returned. -/
theorem exists_context_sendCommand (d : Device cfg H) (endpoint : UInt8)
    (data : SerialPacketsData cfg) (responseHandler : Option H) (timeoutMillis : UInt16)
    (tx : TxAnswers)
    (hok : (d.sendCommand endpoint data responseHandler timeoutMillis tx).1.ok = true) :
    let result := d.sendCommand endpoint data responseHandler timeoutMillis tx
    result.1.cmdId ≠ 0 ∧ timeoutMillis ≤ maxCmdTimeoutMillis ∧ ∃ slot handler,
      responseHandler = some handler ∧
        result.2.commandContexts slot
          = ⟨result.1.cmdId, some handler, millis result.2.now + timeoutMillis.toUInt32⟩ := by
  rcases d.sendCommand_cases endpoint data responseHandler timeoutMillis tx with
    ⟨-, hfailed, -⟩ | ⟨⟨-, -, htimeout, -⟩, slot, handler, d₁, x, -, hhandler, -, -, hrest⟩
  · rw [hfailed] at hok
    exact absurd hok Bool.false_ne_true
  · rcases hrest with ⟨-, hfailed, -⟩ | ⟨-, hsuccess⟩
    · rw [hfailed] at hok
      exact absurd hok Bool.false_ne_true
    · rw [hsuccess]
      refine ⟨nextCmdId_ne_zero _, htimeout, slot, handler, hhandler, ?_⟩
      rw [commandContexts_setUpContext, Function.update_self]
      rfl

private theorem toBitVec_expiration (t₀ : ℕ) (timeoutMillis : UInt16) :
    (millis t₀ + timeoutMillis.toUInt32).toBitVec
      = WrapClock.reading 32 (t₀ + timeoutMillis.toNat) := by
  rw [WrapClock.reading_add, UInt32.toBitVec_add, toBitVec_millis]
  congr 1
  rw [WrapClock.reading]
  apply BitVec.eq_of_toNat_eq
  rw [BitVec.toNat_ofNat, Nat.mod_eq_of_lt (by have := timeoutMillis.toNat_lt; omega)]
  rfl

/-- **The comparison is exact**: a command younger than half a turn of the clock counts as expired
from its expiration time on. -/
theorem millisLeft_pos_iff {t₀ t : ℕ} {timeoutMillis : UInt16}
    (htimeout : timeoutMillis ≤ maxCmdTimeoutMillis) (h : t₀ ≤ t) (hspan : t - t₀ < 2 ^ 31) :
    (millis t₀ + timeoutMillis.toUInt32 - millis t).toBitVec.toInt > 0 ↔
      t < t₀ + timeoutMillis.toNat := by
  have hle : timeoutMillis.toNat ≤ 10000 := htimeout
  rw [UInt32.toBitVec_sub, toBitVec_expiration, toBitVec_millis,
    WrapClock.distance_eq (by push_cast; omega) (by push_cast; omega)]
  omega

/-! ## The sweep -/

variable (react : ℕ → Reaction cfg H) (millisNow : UInt32) {d : Device cfg H}
  {slot : Fin cfg.maxPendingCommands}

theorem cleanupSlot_of_early
    (hleft : ((d.commandContexts slot).expirationTimeMillis - millisNow).toBitVec.toInt > 0) :
    d.cleanupSlot react millisNow slot = d := by
  rw [cleanupSlot]
  dsimp only
  rw [if_pos hleft]
  exact ite_self d

theorem slotTrace_cleanupSlot_of_overdue {cmdId : UInt32} {handler : H}
    (hid : (d.commandContexts slot).cmdId = cmdId) (hpending : cmdId ≠ 0)
    (hhandler : (d.commandContexts slot).responseHandler = some handler)
    (hover : ¬((d.commandContexts slot).expirationTimeMillis - millisNow).toBitVec.toInt > 0) :
    (d.cleanupSlot react millisNow slot).slotTrace slot = d.slotTrace slot
        ++ [.responseCall slot handler cmdId statusTimeout [] .cleanup, .released slot] ∧
      (d.cleanupSlot react millisNow slot).commandContexts slot = .clear := by
  rw [cleanupSlot, if_neg (hid ▸ hpending), if_neg hover, hhandler, hid]
  exact slotTrace_call
    (d := { d.log (.commandTimeout cmdId) with tmpData := d.tmpData.clear, calls := d.calls + 1 })
    (hid ▸ hpending)
    (moves_callResponseHandler react slot handler cmdId statusTimeout [] .cleanup
      { d.log (.commandTimeout cmdId) with tmpData := d.tmpData.clear })

theorem slotGrows_cleanupSlot {other : Fin cfg.maxPendingCommands} (hother : other ≠ slot) :
    SlotGrows d (d.cleanupSlot react millisNow slot) other := by
  rw [cleanupSlot]
  split
  · exact .refl d other
  · split
    · exact .refl d other
    · dsimp only
      cases (d.commandContexts slot).responseHandler with
      | none =>
        have hlog : SlotGrows d ((d.log (.commandTimeout (d.commandContexts slot).cmdId)).log
            (.timeoutWithoutHandler (d.commandContexts slot).cmdId)) other := Or.inl ⟨rfl, rfl⟩
        exact hlog.trans (Or.inl (slotStill_clearContext hother))
      | some handler =>
        have hcalled : SlotGrows d
            { d.log (.commandTimeout (d.commandContexts slot).cmdId) with
              tmpData := d.tmpData.clear, calls := d.calls + 1 } other := Or.inl ⟨rfl, rfl⟩
        exact hcalled.trans (slotGrows_call hother
          (moves_callResponseHandler react slot handler _ statusTimeout [] .cleanup
            { d.log (.commandTimeout (d.commandContexts slot).cmdId) with
              tmpData := d.tmpData.clear }))

private theorem slotGrows_foldl_cleanupSlot {slots : List (Fin cfg.maxPendingCommands)}
    (hslot : slot ∉ slots) (d : Device cfg H) :
    SlotGrows d (slots.foldl (cleanupSlot react millisNow) d) slot := by
  induction slots generalizing d with
  | nil => exact .refl d slot
  | cons other slots ih =>
    rw [List.mem_cons, not_or] at hslot
    exact (slotGrows_cleanupSlot react millisNow hslot.1).trans (ih hslot.2 _)

/-- The slot is handled at its turn: what happens to it before is nothing, if it is pending, and
what happens to it after is at most that it is filled again. -/
theorem exists_sweep (hpending : (d.commandContexts slot).cmdId ≠ 0) :
    ∃ m, SlotStill d m slot ∧
      SlotGrows (m.cleanupSlot react millisNow slot) (d.sweep react millisNow) slot := by
  obtain ⟨pre, post, hsplit⟩ := List.append_of_mem (List.mem_finRange slot)
  have hnodup := List.nodup_finRange cfg.maxPendingCommands
  rw [hsplit, List.nodup_append, List.nodup_cons] at hnodup
  obtain ⟨-, ⟨hpost, -⟩, hdisjoint⟩ := hnodup
  have hpre : slot ∉ pre := fun h ↦ hdisjoint slot h slot List.mem_cons_self rfl
  refine ⟨pre.foldl (cleanupSlot react millisNow) d,
    (slotGrows_foldl_cleanupSlot react millisNow hpre d).still_of_pending hpending, ?_⟩
  rw [sweep, hsplit, List.foldl_append, List.foldl_cons]
  exact slotGrows_foldl_cleanupSlot react millisNow hpost _

/-- **Timeouts are exact.** Let a pass of `loop_cleanup` read the clock at true time `t`, and let a
slot be pending with what `sendCommand` stored at true time `t₀`, at most `t` and less than half a
turn of the clock ago. If the timeout is over, the pass calls the handler of the slot once, with
`TIMEOUT` and no data, and releases the slot, which may then be filled by a handler called later in
the pass. Otherwise the pass does nothing to the slot. -/
theorem loopCleanup_exact (react : ℕ → Reaction cfg H) (d : Device cfg H)
    (resetMillis sweepMillis t₀ : ℕ) (timeoutMillis : UInt16) (slot : Fin cfg.maxPendingCommands)
    (cmdId : UInt32) (handler : H)
    (hpass : 2 ≤ (d.cleanupTimer.elapsedMillis d.now).toNat)
    (hpending : cmdId ≠ 0)
    (hcontext : d.commandContexts slot
      = ⟨cmdId, some handler, millis t₀ + timeoutMillis.toUInt32⟩)
    (htimeout : timeoutMillis ≤ maxCmdTimeoutMillis)
    (hle : t₀ ≤ d.now + resetMillis + sweepMillis)
    (hspan : d.now + resetMillis + sweepMillis - t₀ < 2 ^ 31) :
    let t := d.now + resetMillis + sweepMillis
    let d' := d.loopCleanup react resetMillis sweepMillis
    (t₀ + timeoutMillis.toNat ≤ t →
      let called := d.slotTrace slot
        ++ [.responseCall slot handler cmdId statusTimeout [] .cleanup, .released slot]
      d'.slotTrace slot = called ∧ d'.commandContexts slot = .clear ∨
        ∃ cmdId' handler', d'.slotTrace slot = called ++ [.accepted slot cmdId' handler'] ∧
          (d'.commandContexts slot).cmdId = cmdId' ∧
          (d'.commandContexts slot).responseHandler = some handler') ∧
    (t < t₀ + timeoutMillis.toNat →
      d'.slotTrace slot = d.slotTrace slot ∧ d'.commandContexts slot = d.commandContexts slot) := by
  intro t d'
  -- the device at which the sweep starts
  set d₀ : Device cfg H :=
    { d.wait resetMillis with cleanupTimer := .reset (d.wait resetMillis).now }.wait sweepMillis
  have hd' : d' = d₀.sweep react (millis t) := if_neg (Nat.not_lt_of_le hpass)
  have hid : (d₀.commandContexts slot).cmdId = cmdId := congrArg CommandContext.cmdId hcontext
  obtain ⟨m, ⟨htrace, hm⟩, hafter⟩ := exists_sweep react (millis t) (hid ▸ hpending)
  rw [← hd'] at hafter
  have hm' : m.commandContexts slot
      = ⟨cmdId, some handler, millis t₀ + timeoutMillis.toUInt32⟩ := hm.trans hcontext
  have hcompare := millisLeft_pos_iff htimeout hle hspan
  constructor
  · intro hover called
    obtain ⟨hcalled, hclear⟩ := slotTrace_cleanupSlot_of_overdue react (millis t)
      (congrArg CommandContext.cmdId hm') hpending (congrArg CommandContext.responseHandler hm')
      (by rw [hm', hcompare]; exact Nat.not_lt_of_le hover)
    rw [htrace] at hcalled
    rcases hafter with ⟨hstill, hcontext'⟩ | ⟨-, cmdId', handler', -, hfilled, hid', hhandler'⟩
    · exact Or.inl ⟨hstill.trans hcalled, hcontext'.trans hclear⟩
    · exact Or.inr ⟨cmdId', handler', by rw [hfilled, hcalled]; rfl, hid', hhandler'⟩
  · intro hearly
    rw [cleanupSlot_of_early react (millis t) (by rw [hm', hcompare]; exact hearly)] at hafter
    obtain ⟨hstill, hcontext'⟩ :=
      hafter.still_of_pending (by rw [hm']; exact hpending)
    exact ⟨hstill.trans htrace, hcontext'.trans hm⟩

/-- A client whose first slot was filled half a second before the clock wrapped, with a timeout of
one second; 600 milliseconds after the wrap the command is overdue. -/
theorem loopCleanup_exact_wrapped :
    let d : Device Config.default Unit :=
      { create none none (2 ^ 32 + 600) with
        cleanupTimer := .reset (2 ^ 32 - 500)
        commandContexts := fun _ ↦ ⟨7, some (), millis (2 ^ 32 - 500) + 1000⟩ }
    let called : List (Event Config.default Unit) :=
      [.responseCall ⟨0, by decide⟩ () 7 statusTimeout [] .cleanup, .released ⟨0, by decide⟩]
    let d' := d.loopCleanup idle 0 0
    d'.slotTrace ⟨0, by decide⟩ = called ∧ d'.commandContexts ⟨0, by decide⟩ = .clear ∨
      ∃ cmdId handler, d'.slotTrace ⟨0, by decide⟩
          = called ++ [.accepted ⟨0, by decide⟩ cmdId handler] ∧
        (d'.commandContexts ⟨0, by decide⟩).cmdId = cmdId ∧
        (d'.commandContexts ⟨0, by decide⟩).responseHandler = some handler :=
  (loopCleanup_exact idle
    { create none none (2 ^ 32 + 600) with
      cleanupTimer := .reset (2 ^ 32 - 500)
      commandContexts := fun _ ↦ ⟨7, some (), millis (2 ^ 32 - 500) + 1000⟩ }
    0 0 (2 ^ 32 - 500) 1000 ⟨0, by decide⟩ 7 () (by decide) (by decide) rfl (by decide) (by decide)
    (by decide)).1 (by decide)

end Device

end SerialPackets

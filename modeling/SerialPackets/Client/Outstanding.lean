import Mathlib.Algebra.BigOperators.Fin
import SerialPackets.Client.Pending

/-!
# Outstanding commands

A command is *outstanding* from the time `sendCommand` returns `true` until its handler is called.
After every run, `num_pending_commands` is the number of outstanding commands, and the size of the
table is the only limit on it: a well-formed call of `sendCommand` succeeds exactly if there are
fewer outstanding commands than slots and the stream takes the whole packet. With a full table it
does nothing but log so; it uses up no id and leaves the stream alone (`outstanding_of_run`).
-/

namespace SerialPackets

variable {cfg : Config} {H : Type*}

namespace Device

variable {d d₀ : Device cfg H}

/-! ## Counting the table -/

private theorem card_pendingCommands (h : CallsOnce d) :
    d.pendingCommands.card = d.numPendingCommands := by
  have hslot (slot : Fin cfg.maxPendingCommands) :
      (d.commandContexts slot).pending?.toList.length
        = if (d.commandContexts slot).cmdId ≠ 0 then 1 else 0 := by
    rw [CommandContext.pending?, ite_not]
    split
    · rfl
    · rename_i hpending
      obtain ⟨handler, hhandler⟩ := Option.ne_none_iff_exists'.mp (h.handlers slot hpending)
      rw [hhandler]
      rfl
  have hsum (slots : List (Fin cfg.maxPendingCommands)) :
      (slots.map fun slot ↦ (d.commandContexts slot).pending?.toList.length).sum
        = slots.countP fun slot ↦ (d.commandContexts slot).cmdId ≠ 0 := by
    induction slots with
    | nil => rfl
    | cons slot slots ih =>
      rw [List.map_cons, List.sum_cons, List.countP_cons, ih, hslot, Nat.add_comm]
      simp only [decide_eq_true_eq]
  rw [pendingCommands, Multiset.card_sum, numPendingCommands, ← hsum, Fin.sum_univ_def]
  rfl

theorem findContextWithCmdId_zero_eq_none_iff :
    d.findContextWithCmdId 0 = none ↔ d.numPendingCommands = cfg.maxPendingCommands := by
  have hfull := List.countP_eq_length (p := fun slot ↦ (d.commandContexts slot).cmdId ≠ 0)
    (l := List.finRange cfg.maxPendingCommands)
  rw [List.length_finRange] at hfull
  rw [findContextWithCmdId, List.find?_eq_none, numPendingCommands, hfull]
  simp

/-! ## The limit -/

/-- How many commands are outstanding, and what that means for the next one. -/
structure Outstanding (d : Device cfg H) : Prop where
  /-- The commands accepted are those called and those counted as pending. -/
  count : d.acceptances.length = d.handlerCalls.length + d.numPendingCommands
  /-- There are never more outstanding commands than slots. -/
  count_le : d.acceptances.length ≤ d.handlerCalls.length + cfg.maxPendingCommands
  /-- Nothing but the table and the stream limits how many there are. -/
  accepts_iff : ∀ (endpoint : UInt8) (data : SerialPacketsData cfg) (handler : H)
    (timeoutMillis : UInt16) (tx : TxAnswers), d.begun = true →
      timeoutMillis ≤ maxCmdTimeoutMillis →
      ((d.sendCommand endpoint data (some handler) timeoutMillis tx).1.ok = true ↔
        d.acceptances.length < d.handlerCalls.length + cfg.maxPendingCommands ∧
          (d.outcomeOf (d.nextCommand endpoint data) tx).IsComplete)
  /-- With a full table nothing is sent and no id is used up. -/
  refuses : ∀ (endpoint : UInt8) (data : SerialPacketsData cfg) (handler : H)
    (timeoutMillis : UInt16) (tx : TxAnswers), d.begun = true →
      timeoutMillis ≤ maxCmdTimeoutMillis →
      d.acceptances.length = d.handlerCalls.length + cfg.maxPendingCommands →
      d.sendCommand endpoint data (some handler) timeoutMillis tx
        = (.failed, d.log .tooManyCommands)

private theorem numPendingCommands_le (d : Device cfg H) :
    d.numPendingCommands ≤ cfg.maxPendingCommands :=
  List.countP_le_length.trans_eq List.length_finRange

private theorem sendCommand_of_full (endpoint : UInt8) (data : SerialPacketsData cfg) (handler : H)
    {timeoutMillis : UInt16} (tx : TxAnswers) (hbegun : d.begun = true)
    (htimeout : timeoutMillis ≤ maxCmdTimeoutMillis)
    (hfull : d.numPendingCommands = cfg.maxPendingCommands) :
    d.sendCommand endpoint data (some handler) timeoutMillis tx
      = (.failed, d.log .tooManyCommands) := by
  rw [sendCommand.eq_def, if_neg (by rw [hbegun]; exact Bool.false_ne_true.symm)]
  dsimp only
  rw [if_neg (UInt16.not_lt.mpr htimeout), findContextWithCmdId_zero_eq_none_iff.mpr hfull]

theorem CallsOnce.outstanding (h : CallsOnce d) : Outstanding d := by
  have hcount : d.acceptances.length = d.handlerCalls.length + d.numPendingCommands := by
    have hcard := congrArg Multiset.card h.partition
    rwa [Multiset.card_add, Multiset.coe_card, Multiset.coe_card, card_pendingCommands h] at hcard
  have hle := d.numPendingCommands_le
  refine ⟨hcount, hcount ▸ Nat.add_le_add_left hle _, ?_, ?_⟩
  · intro endpoint data handler timeoutMillis tx hbegun htimeout
    by_cases hfull : d.numPendingCommands = cfg.maxPendingCommands
    · rw [sendCommand_of_full endpoint data handler tx hbegun htimeout hfull]
      exact iff_of_false Bool.false_ne_true fun haccepts ↦ by omega
    · have hreach : d.ReachesStream (some handler) timeoutMillis :=
        ⟨hbegun, Option.some_ne_none handler, htimeout,
          fun hnone ↦ hfull (findContextWithCmdId_zero_eq_none_iff.mp hnone)⟩
      rw [ok_sendCommand_iff d endpoint data _ _ tx hreach]
      exact (and_iff_right (by omega)).symm
  · intro endpoint data handler timeoutMillis tx hbegun htimeout hfull
    exact sendCommand_of_full endpoint data handler tx hbegun htimeout
      (Nat.add_left_cancel (hcount.symm.trans hfull))

/-- **Flow control.** After every run of a client, for all callbacks, streams and input, the
outstanding commands are counted as pending. If the client has begun, a command with a handler and a
valid timeout is accepted exactly if there are fewer of them than slots and the stream takes the
whole packet, and with a full table it is refused and only that is logged. -/
theorem outstanding_of_run (react : ℕ → Reaction cfg H) (ops : List (Op cfg H))
    (hfresh : IsFresh d₀) (hrun : Runs.run (step react) d₀ ops = some d) : Outstanding d := by
  obtain ⟨bytes, hmoves⟩ := moves_run react hrun
  exact (callsOnce_of_slotAccounts (hmoves.slotAccounts hfresh)).outstanding

/-- A table with one slot. -/
def oneSlot : Config where
  maxPacketDataLen := Config.default.maxPacketDataLen
  maxPendingCommands := 1
  sizes_fit := Config.default.sizes_fit
  pending_fit := Nat.one_lt_two_pow (Nat.succ_ne_zero 15)

/-- After one accepted command the table is full. -/
theorem outstanding_of_run_oneSlot :
    ∃ d, Runs.run (step idle) (create none none 0 : Device oneSlot Unit)
        [.begin, .sendCommand 0 (.fresh (Vector.replicate _ 0)) (some ()) 1000 ⟨0, 0, 100, 100, 0⟩]
          = some d ∧
      d.acceptances.length = d.handlerCalls.length + oneSlot.maxPendingCommands ∧ Outstanding d :=
  ⟨_, rfl, by decide +kernel, outstanding_of_run idle
    [.begin, .sendCommand 0 (.fresh (Vector.replicate _ 0)) (some ()) 1000 ⟨0, 0, 100, 100, 0⟩]
    (isFresh_create none none 0) rfl⟩

end Device

end SerialPackets

import SerialPackets.Client.Sending
import Mathlib.Data.List.Nodup

/-!
# The results of the sending functions

`sendCommand` is all or nothing on the pending table: it returns `true` exactly when the whole
packet has been accepted by the stream, and only then does a context change. `sendMessage` has no
table to commit to and returns `true` also for a message that was cut short; apart from that case it
reports what `sendCommand` would.
-/

namespace SerialPackets

variable {cfg : Config} {H : Type*}

namespace Device

/-- The packet on the wire, if an attempt to send it is made now. -/
def wireOf (d : Device cfg H) (p : Packet (List UInt8)) (tx : TxAnswers) : List UInt8 :=
  Packet.wire (d.preFlagDue (d.now + tx.flushMillis)) p

/-- The outcome of an attempt made now. -/
def outcomeOf (d : Device cfg H) (p : Packet (List UInt8)) (tx : TxAnswers) : TxOutcome :=
  .ofSize cfg (d.wireOf p tx).length tx

/-- The command packet that `sendCommand` would send now. -/
def nextCommand (d : Device cfg H) (endpoint : UInt8) (data : SerialPacketsData cfg) :
    Packet (List UInt8) :=
  .command (nextCmdId d.cmdIdCounter) endpoint data.contents

theorem Transmits.outcome_eq {d d' : Device cfg H} {start : ℕ} {p : Packet (List UInt8)}
    {tx : TxAnswers} {x : Transmission} (h : Transmits d d' start p tx x) :
    x.outcome = d.outcomeOf p tx := by
  rw [h.outcome, h.preFlag, h.checked]
  rfl

private theorem Transmits.bytes_eq {d d' : Device cfg H} {start : ℕ} {p : Packet (List UInt8)}
    {tx : TxAnswers} {x : Transmission} (h : Transmits d d' start p tx x) :
    x.bytes = (d.wireOf p tx).take (d.outcomeOf p tx).written := by
  rw [h.bytes, h.outcome_eq, h.preFlag, h.checked]
  rfl

private theorem take_written_of_isComplete {d : Device cfg H} {p : Packet (List UInt8)}
    {tx : TxAnswers} (h : (d.outcomeOf p tx).IsComplete) :
    (d.wireOf p tx).take (d.outcomeOf p tx).written = d.wireOf p tx :=
  TxOutcome.take_written_of_isComplete h

private theorem take_written_of_not_wrote {d : Device cfg H} {p : Packet (List UInt8)}
    {tx : TxAnswers}
    (hcomplete : ¬(d.outcomeOf p tx).IsComplete) (hshort : ¬(d.outcomeOf p tx).IsShort) :
    (d.wireOf p tx).take (d.outcomeOf p tx).written = [] :=
  TxOutcome.take_written_of_not_wrote hcomplete hshort

/-! ## The pending table -/

private theorem numPendingCommands_update {d d' : Device cfg H} {slot : Fin cfg.maxPendingCommands}
    {context : CommandContext H} (hfree : (d.commandContexts slot).cmdId = 0)
    (hcontext : context.cmdId ≠ 0)
    (h : d'.commandContexts = Function.update d.commandContexts slot context) :
    d'.numPendingCommands = d.numPendingCommands + 1 := by
  have hperm := List.perm_cons_erase (List.mem_finRange slot)
  have hrest : ((List.finRange cfg.maxPendingCommands).erase slot).countP
        (fun s ↦ (d'.commandContexts s).cmdId ≠ 0)
      = ((List.finRange cfg.maxPendingCommands).erase slot).countP
        (fun s ↦ (d.commandContexts s).cmdId ≠ 0) := by
    refine List.countP_congr fun s hs ↦ ?_
    have hne : s ≠ slot := ((List.nodup_finRange _).mem_erase_iff.mp hs).1
    rw [h, Function.update_of_ne hne]
  rw [numPendingCommands, numPendingCommands, hperm.countP_eq, hperm.countP_eq,
    List.countP_cons_of_pos, List.countP_cons_of_neg, hrest]
  · simpa using hfree
  · rw [h, Function.update_self]
    simpa using hcontext

/-! ## `sendCommand` -/

/-- **`sendCommand` is all or nothing.** It returns `true` exactly when it gets as far as sending
and the stream accepts every byte. Otherwise the id is zero, every context is unchanged, and unless
the write was short nothing was written. When it returns `true`, the whole packet with the returned
id was written, one free context now holds that id, the handler and the expiration time, and there
is one more pending command. -/
theorem sendCommand_allOrNothing (d : Device cfg H) (endpoint : UInt8)
    (data : SerialPacketsData cfg) (responseHandler : Option H) (timeoutMillis : UInt16)
    (tx : TxAnswers) :
    let result := (d.sendCommand endpoint data responseHandler timeoutMillis tx).1
    let d' := (d.sendCommand endpoint data responseHandler timeoutMillis tx).2
    (result.ok = true ↔ d.ReachesStream responseHandler timeoutMillis ∧
      (d.outcomeOf (d.nextCommand endpoint data) tx).IsComplete) ∧
    (result.ok = false → result.cmdId = 0 ∧ d'.commandContexts = d.commandContexts ∧
      (¬(d.ReachesStream responseHandler timeoutMillis ∧
          (d.outcomeOf (d.nextCommand endpoint data) tx).IsShort) → d'.sent = d.sent)) ∧
    (result.ok = true → result.cmdId ≠ 0 ∧
      d'.sent = d.sent ++ d.wireOf (.command result.cmdId endpoint data.contents) tx ∧
      ∃ slot handler, responseHandler = some handler ∧ (d.commandContexts slot).cmdId = 0 ∧
        d'.commandContexts = Function.update d.commandContexts slot
          ⟨result.cmdId, some handler, millis d'.now + timeoutMillis.toUInt32⟩ ∧
        d'.numPendingCommands = d.numPendingCommands + 1) := by
  intro result d'
  rcases d.sendCommand_cases endpoint data responseHandler timeoutMillis tx with
    ⟨hreach, hfailed, hlogs⟩ | ⟨hreach, slot, handler, d₁, x, -, hhandler, hslot, htx, hrest⟩
  · -- the stream is never reached, and nothing but a report is left behind
    have hok : result.ok = false := congrArg SendResult.ok hfailed
    refine ⟨iff_of_false (by rw [hok]; exact Bool.false_ne_true) fun h ↦ hreach h.1, ?_, ?_⟩
    · intro _
      exact ⟨congrArg SendResult.cmdId hfailed, hlogs.quiet.contexts, fun _ ↦ hlogs.quiet.sent⟩
    · intro h
      exact absurd (hok.symm.trans h) Bool.false_ne_true
  · have houtcome : x.outcome = d.outcomeOf (d.nextCommand endpoint data) tx := htx.outcome_eq
    have hbytes : x.bytes = (d.wireOf (d.nextCommand endpoint data) tx).take
        (d.outcomeOf (d.nextCommand endpoint data) tx).written := htx.bytes_eq
    have hsent : d₁.sent = d.sent ++ x.bytes := htx.sent
    rw [houtcome] at hrest
    rcases hrest with ⟨hincomplete, hfailed, hlogs⟩ | ⟨hcomplete, hsuccess⟩
    · have hok : result.ok = false := congrArg SendResult.ok hfailed
      refine ⟨iff_of_false (by rw [hok]; exact Bool.false_ne_true) fun h ↦ hincomplete h.2, ?_, ?_⟩
      · intro _
        refine ⟨congrArg SendResult.cmdId hfailed, hlogs.quiet.contexts.trans htx.contexts, ?_⟩
        intro hshort
        rw [hlogs.quiet.sent, hsent, hbytes, take_written_of_not_wrote hincomplete
          fun h ↦ hshort ⟨hreach, h⟩, List.append_nil]
      · intro h
        exact absurd (hok.symm.trans h) Bool.false_ne_true
    · have hresult : result = ⟨true, nextCmdId d.cmdIdCounter⟩ := congrArg Prod.fst hsuccess
      have hd' : d' = d₁.setUpContext slot (nextCmdId d.cmdIdCounter) handler timeoutMillis :=
        congrArg Prod.snd hsuccess
      refine ⟨iff_of_true (by rw [hresult]) ⟨hreach, hcomplete⟩, ?_, ?_⟩
      · intro h
        rw [hresult] at h
        exact absurd h.symm Bool.false_ne_true
      · intro _
        have hfree := cmdId_of_findContextWithCmdId hslot
        have hcontexts : d'.commandContexts = Function.update d.commandContexts slot
            ⟨nextCmdId d.cmdIdCounter, some handler, millis d'.now + timeoutMillis.toUInt32⟩ := by
          rw [hd', setUpContext, htx.contexts]
          rfl
        rw [hresult]
        refine ⟨nextCmdId_ne_zero _, ?_, slot, handler, hhandler, hfree, hcontexts, ?_⟩
        · rw [hd', setUpContext, hsent, hbytes, take_written_of_isComplete hcomplete]
          rfl
        · exact numPendingCommands_update hfree (nextCmdId_ne_zero _) hcontexts

/-! ## `sendMessage` -/

/-- The stream dealt with two packets in the same way. -/
def SameStreamResults : TxOutcome → TxOutcome → Prop
  | .encodeFailed, .encodeFailed => True
  | .noRoom _ _, .noRoom _ _ => True
  | .wrote written size, .wrote written' size' => (written = size ↔ written' = size')
  | _, _ => False

/-- What a caller of `sendMessage` may rely on: `true` means that every byte was accepted, as it
does for `sendCommand` with the same stream results; `false` without an attempt to write means that
nothing was written; commands are not affected. -/
structure MessageContract (d : Device cfg H) (endpoint : UInt8) (data : SerialPacketsData cfg)
    (tx : TxAnswers) : Prop where
  true_iff : (d.sendMessage endpoint data tx).1 = true ↔
    (d.sendMessage endpoint data tx).2.sent
      = d.sent ++ d.wireOf (.message endpoint data.contents) tx
  agrees : ∀ (c : Device cfg H) (endpoint' : UInt8) (data' : SerialPacketsData cfg)
    (responseHandler : Option H) (timeoutMillis : UInt16) (tx' : TxAnswers),
    d.begun = true → c.ReachesStream responseHandler timeoutMillis →
      SameStreamResults (d.outcomeOf (.message endpoint data.contents) tx)
        (c.outcomeOf (c.nextCommand endpoint' data') tx') →
      (d.sendMessage endpoint data tx).1
        = (c.sendCommand endpoint' data' responseHandler timeoutMillis tx').1.ok
  sent_of_failed : (d.outcomeOf (.message endpoint data.contents) tx).IsFailed →
    (d.sendMessage endpoint data tx).1 = false ∧ (d.sendMessage endpoint data tx).2.sent = d.sent
  contexts : (d.sendMessage endpoint data tx).2.commandContexts = d.commandContexts
  counter : (d.sendMessage endpoint data tx).2.cmdIdCounter = d.cmdIdCounter

theorem ok_sendCommand_iff (d : Device cfg H) (endpoint : UInt8) (data : SerialPacketsData cfg)
    (responseHandler : Option H) (timeoutMillis : UInt16) (tx : TxAnswers)
    (hreach : d.ReachesStream responseHandler timeoutMillis) :
    (d.sendCommand endpoint data responseHandler timeoutMillis tx).1.ok = true ↔
      (d.outcomeOf (d.nextCommand endpoint data) tx).IsComplete := by
  rcases d.sendCommand_cases endpoint data responseHandler timeoutMillis tx with
    ⟨hnot, -, -⟩ | ⟨-, slot, handler, d₁, x, -, -, -, htx, hrest⟩
  · exact absurd hreach hnot
  · have houtcome : x.outcome = d.outcomeOf (d.nextCommand endpoint data) tx := htx.outcome_eq
    rw [houtcome] at hrest
    rcases hrest with ⟨hincomplete, hfailed, -⟩ | ⟨hcomplete, hsuccess⟩
    · exact iff_of_false (by rw [hfailed]; exact Bool.false_ne_true) hincomplete
    · exact iff_of_true (by rw [hsuccess]) hcomplete

private theorem SameStreamResults.isComplete_iff {a b : TxOutcome} (h : SameStreamResults a b) :
    a.IsComplete ↔ b.IsComplete := by
  rcases a with _ | ⟨size, available⟩ | ⟨written, size⟩
  all_goals rcases b with _ | ⟨size', available'⟩ | ⟨written', size'⟩
  all_goals first | exact False.elim h | exact Iff.rfl | exact h

private theorem sendMessage_of_isShort {d : Device cfg H} (endpoint : UInt8)
    (data : SerialPacketsData cfg) {tx : TxAnswers} (hbegun : d.begun = true)
    (hshort : (d.outcomeOf (.message endpoint data.contents) tx).IsShort) :
    (d.sendMessage endpoint data tx).1 = true ∧
      (d.sendMessage endpoint data tx).2.sent
        ≠ d.sent ++ d.wireOf (.message endpoint data.contents) tx := by
  rcases d.sendMessage_cases endpoint data tx with ⟨hbegun', -⟩ |
    ⟨-, d₁, x, -, htx, hlogs, hresult⟩
  · exact absurd (hbegun'.symm.trans hbegun) Bool.false_ne_true
  · rw [htx.outcome_eq] at hresult
    refine ⟨hresult.mpr (TxOutcome.not_isFailed_of_isShort hshort), ?_⟩
    rw [hlogs.quiet.sent, htx.sent, htx.bytes_eq, Ne, List.append_cancel_left_eq]
    intro hall
    have hlen := congrArg List.length hall
    cases ho : d.outcomeOf (.message endpoint data.contents) tx with
    | wrote written size =>
      rw [ho] at hshort hlen
      obtain ⟨-, -, -, hsize⟩ := TxOutcome.ofSize_eq_wrote_iff.mp ho
      rw [TxOutcome.written, List.length_take, ← hsize, min_eq_left_of_lt hshort] at hlen
      exact (ne_of_lt hshort) hlen
    | _ =>
      rw [ho] at hshort
      exact False.elim hshort

/-- **`sendMessage` keeps its contract unless a write is short**: the packet could be encoded, the
stream had room for it, and accepted fewer bytes. -/
theorem messageContract_iff (d : Device cfg H) (endpoint : UInt8) (data : SerialPacketsData cfg)
    (tx : TxAnswers) :
    MessageContract d endpoint data tx ↔
      ¬(d.begun = true ∧
        (d.wireOf (.message endpoint data.contents) tx).length < cfg.stuffedCapacity ∧
        (d.wireOf (.message endpoint data.contents) tx).length ≤ tx.availableForWrite ∧
        tx.written < (d.wireOf (.message endpoint data.contents) tx).length) := by
  set p : Packet (List UInt8) := .message endpoint data.contents with hp
  rw [← TxOutcome.isShort_ofSize_iff, ← outcomeOf]
  rcases d.sendMessage_cases endpoint data tx with ⟨hbegun, heq⟩ |
    ⟨hbegun, d₁, x, -, htx, hlogs, hresult⟩
  · refine iff_of_true ?_ fun h ↦ Bool.false_ne_true (hbegun.symm.trans h.1)
    refine ⟨?_, ?_, ?_, ?_, ?_⟩
    · rw [heq]
      refine iff_of_false Bool.false_ne_true fun h ↦ ?_
      exact Packet.wire_ne_nil _ _ (List.self_eq_append_right.mp h)
    · intro _ _ _ _ _ _ h
      exact absurd (hbegun.symm.trans h) Bool.false_ne_true
    · rw [heq]
      exact fun _ ↦ ⟨rfl, rfl⟩
    · rw [heq]
    · rw [heq]
  · rw [← hp] at htx
    have hsent : (d.sendMessage endpoint data tx).2.sent
        = d.sent ++ (d.wireOf p tx).take (d.outcomeOf p tx).written := by
      rw [hlogs.quiet.sent, htx.sent, htx.bytes_eq]
    rw [htx.outcome_eq] at hresult
    -- a short write breaks the first part of the contract, and nothing else breaks any
    constructor
    · rintro hcontract ⟨-, hshort⟩
      obtain ⟨htrue, hsent'⟩ := sendMessage_of_isShort endpoint data hbegun hshort
      exact hsent' (hcontract.true_iff.mp htrue)
    · intro hnot
      have hnotshort : ¬(d.outcomeOf p tx).IsShort := fun h ↦ hnot ⟨hbegun, h⟩
      have hcomplete : (d.sendMessage endpoint data tx).1 = true ↔
          (d.outcomeOf p tx).IsComplete := by
        rw [hresult]
        exact ⟨(TxOutcome.isFailed_or_isComplete_of_not_isShort hnotshort).resolve_left,
          TxOutcome.not_isFailed_of_isComplete⟩
      refine ⟨?_, ?_, ?_, ?_, ?_⟩
      · rw [hcomplete, hsent, ← hp, List.append_cancel_left_eq]
        refine ⟨take_written_of_isComplete, fun h ↦ ?_⟩
        by_contra hincomplete
        rw [take_written_of_not_wrote hincomplete hnotshort] at h
        exact Packet.wire_ne_nil _ _ h.symm
      · intro c endpoint' data' responseHandler timeoutMillis tx' _ hreach hsame
        rw [Bool.eq_iff_iff, hcomplete, ok_sendCommand_iff _ _ _ _ _ _ hreach]
        exact hsame.isComplete_iff
      · intro hfailed
        have hincomplete : ¬(d.outcomeOf p tx).IsComplete :=
          fun h ↦ TxOutcome.not_isFailed_of_isComplete h hfailed
        refine ⟨by rw [← Bool.not_eq_true, hcomplete]; exact hincomplete, ?_⟩
        rw [hsent, take_written_of_not_wrote hincomplete hnotshort, List.append_nil]
      · rw [hlogs.quiet.contexts, htx.contexts]
      · rw [hlogs.quiet.counter, htx.counter]

/-- A client without handlers, begun at time zero. -/
def begunClient : Device Config.default Unit := (create none none 0).begin

/-- Callbacks that do nothing. -/
def idle (_ : ℕ) : Reaction cfg H := ⟨[], ⟨0, 0, 0, 0, 0⟩⟩

/-- A payload without bytes. -/
def noBytes : SerialPacketsData Config.default := .fresh (Vector.replicate _ 0)

/-- The stream has room for a message but accepts none of it. -/
theorem not_messageContract_begunClient :
    ¬MessageContract begunClient 0 noBytes ⟨0, 0, 100, 0, 0⟩ := by
  intro h
  have hshort :
      (begunClient.outcomeOf (.message 0 noBytes.contents) ⟨0, 0, 100, 0, 0⟩).IsShort := by
    rw [outcomeOf, TxOutcome.isShort_ofSize_iff]
    decide +kernel
  obtain ⟨htrue, hsent⟩ := sendMessage_of_isShort 0 noBytes rfl hshort
  exact hsent (h.true_iff.mp htrue)

end Device

end SerialPackets

import SerialPackets.Model.Client

/-!
# What sending does

The effect of `transmit`, `sendCommand` and `sendMessage` on the parts of a device that matter to
anything else, said once. Sending leaves the decoder, the handlers and all but one slot of the
pending table alone; it appends to the bytes sent exactly what the stream accepts of the packet on
the wire.
-/

namespace SerialPackets

open Framing

variable {cfg : Config} {H : Type*}

/-! ## Outcomes -/

namespace TxOutcome

/-- The bytes the stream accepted. -/
def written : TxOutcome → ℕ
  | wrote written _ => written
  | _ => 0

/-- Every byte was accepted. -/
def IsComplete : TxOutcome → Prop
  | wrote written size => written = size
  | _ => False

/-- Some byte was offered to the stream and not accepted. -/
def IsShort : TxOutcome → Prop
  | wrote written size => written < size
  | _ => False

/-- The packet was never offered to the stream. -/
def IsFailed : TxOutcome → Prop
  | wrote _ _ => False
  | _ => True

instance : DecidablePred IsComplete
  | wrote written size => inferInstanceAs (Decidable (written = size))
  | encodeFailed => inferInstanceAs (Decidable False)
  | noRoom _ _ => inferInstanceAs (Decidable False)

instance : DecidablePred IsShort
  | wrote written size => inferInstanceAs (Decidable (written < size))
  | encodeFailed => inferInstanceAs (Decidable False)
  | noRoom _ _ => inferInstanceAs (Decidable False)

instance : DecidablePred IsFailed
  | wrote _ _ => inferInstanceAs (Decidable False)
  | encodeFailed => inferInstanceAs (Decidable True)
  | noRoom _ _ => inferInstanceAs (Decidable True)

/-- The outcome for a packet that takes `size` bytes on the wire. -/
def ofSize (cfg : Config) (size : ℕ) (tx : TxAnswers) : TxOutcome :=
  if cfg.stuffedCapacity ≤ size then encodeFailed
  else if tx.availableForWrite < size then noRoom size tx.availableForWrite
  else wrote (min tx.written size) size

theorem ofSize_eq_wrote_iff {size written total : ℕ} {tx : TxAnswers} :
    ofSize cfg size tx = wrote written total ↔
      size < cfg.stuffedCapacity ∧ (size : ℤ) ≤ tx.availableForWrite ∧
        written = min tx.written size ∧ total = size := by
  rw [ofSize]
  split
  · rename_i h
    exact iff_of_false (by simp) fun h' ↦ Nat.not_lt_of_le h h'.1
  · rename_i hfits
    split
    · rename_i h
      exact iff_of_false (by simp) fun h' ↦ Int.not_le.mpr h h'.2.1
    · rename_i hroom
      rw [wrote.injEq]
      exact ⟨fun h ↦ ⟨Nat.lt_of_not_le hfits, Int.not_lt.mp hroom, h.1.symm, h.2.symm⟩,
        fun h ↦ ⟨h.2.2.1.symm, h.2.2.2.symm⟩⟩

theorem isShort_ofSize_iff {size : ℕ} {tx : TxAnswers} :
    (ofSize cfg size tx).IsShort ↔
      size < cfg.stuffedCapacity ∧ (size : ℤ) ≤ tx.availableForWrite ∧ tx.written < size := by
  cases ho : ofSize cfg size tx with
  | wrote written total =>
    obtain ⟨hfits, hroom, rfl, rfl⟩ := ofSize_eq_wrote_iff.mp ho
    rw [IsShort]
    exact ⟨fun h ↦ ⟨hfits, hroom, (min_lt_iff.mp h).resolve_right (lt_irrefl _)⟩,
      fun h ↦ min_lt_of_left_lt h.2.2⟩
  | _ =>
    refine iff_of_false id fun h ↦ ?_
    rw [ofSize_eq_wrote_iff.mpr ⟨h.1, h.2.1, rfl, rfl⟩] at ho
    exact absurd ho (by simp)

theorem isFailed_or_isComplete_of_not_isShort {size : ℕ} {tx : TxAnswers}
    (h : ¬(ofSize cfg size tx).IsShort) :
    (ofSize cfg size tx).IsFailed ∨ (ofSize cfg size tx).IsComplete := by
  cases ho : ofSize cfg size tx with
  | wrote written total =>
    obtain ⟨hfits, hroom, rfl, rfl⟩ := ofSize_eq_wrote_iff.mp ho
    rw [ho, IsShort, not_lt] at h
    exact Or.inr (le_antisymm (min_le_right _ _) h)
  | _ => exact Or.inl trivial

theorem take_written_of_isComplete {bytes : List UInt8} {tx : TxAnswers}
    (h : (ofSize cfg bytes.length tx).IsComplete) :
    bytes.take (ofSize cfg bytes.length tx).written = bytes := by
  cases ho : ofSize cfg bytes.length tx with
  | wrote written size =>
    rw [ho] at h
    have hsize := (ofSize_eq_wrote_iff.mp ho).2.2.2
    rw [TxOutcome.written]
    exact List.take_of_length_le (by rw [← hsize]; exact h.ge)
  | _ =>
    rw [ho] at h
    exact False.elim h

theorem take_written_of_not_wrote {bytes : List UInt8} {tx : TxAnswers}
    (hcomplete : ¬(ofSize cfg bytes.length tx).IsComplete)
    (hshort : ¬(ofSize cfg bytes.length tx).IsShort) :
    bytes.take (ofSize cfg bytes.length tx).written = [] := by
  cases ho : ofSize cfg bytes.length tx with
  | wrote written size =>
    rw [ho] at hcomplete hshort
    have hle : written ≤ size := by
      rw [(ofSize_eq_wrote_iff.mp ho).2.2.1, (ofSize_eq_wrote_iff.mp ho).2.2.2]
      exact Nat.min_le_right _ _
    exact absurd (Nat.lt_of_le_of_ne hle hcomplete) hshort
  | _ => exact List.take_zero

theorem not_isFailed_of_isComplete {o : TxOutcome} (h : o.IsComplete) : ¬o.IsFailed := by
  cases o with
  | wrote written size => exact id
  | _ => exact False.elim h

theorem not_isFailed_of_isShort {o : TxOutcome} (h : o.IsShort) : ¬o.IsFailed := by
  cases o with
  | wrote written size => exact id
  | _ => exact False.elim h

end TxOutcome

namespace Device

/-! ## What sending leaves alone -/

/-- The parts of a device that only `begin` and commands change. -/
structure Frame (d d' : Device cfg H) : Prop where
  ignoring : d'.ignoreRxForTesting = d.ignoreRxForTesting
  commandHandler : d'.optionalCommandHandler = d.optionalCommandHandler
  messageHandler : d'.optionalMessageHandler = d.optionalMessageHandler
  begun : d'.begun = d.begun
  counter : d'.cmdIdCounter = d.cmdIdCounter
  contexts : d'.commandContexts = d.commandContexts

/-- Nothing changes that this development keeps track of, up to the decoder; time may pass. -/
structure Still (d d' : Device cfg H) : Prop extends Frame d d' where
  timer : d'.preFlagTimer = d.preFlagTimer
  sent : d'.sent = d.sent
  trace : d'.trace = d.trace
  now_le : d.now ≤ d'.now

/-- Nothing changes, and the decoder receives nothing. -/
structure Quiet (d d' : Device cfg H) : Prop extends Still d d' where
  receiver : d'.packetDecoder.receiver = d.packetDecoder.receiver

/-- The scratch buffer, the cleanup timer, the reports and the passing of time are not kept track
of. -/
theorem quiet_internal (d : Device cfg H) (tmpData : SerialPacketsData cfg)
    (cleanupTimer : SerialPacketsTimer) (calls : ℕ) (reports : List Report) {now : ℕ}
    (h : d.now ≤ now) :
    Quiet d { d with
      tmpData := tmpData
      cleanupTimer := cleanupTimer
      calls := calls
      reports := reports
      now := now } :=
  ⟨⟨⟨rfl, rfl, rfl, rfl, rfl, rfl⟩, rfl, rfl, rfl, h⟩, rfl⟩

theorem Quiet.refl (d : Device cfg H) : Quiet d d := d.quiet_internal _ _ _ _ (le_refl _)

theorem quiet_log (d : Device cfg H) (r : Report) : Quiet d (d.log r) :=
  d.quiet_internal _ _ _ _ (le_refl _)

theorem quiet_wait (d : Device cfg H) (millis : ℕ) : Quiet d (d.wait millis) :=
  d.quiet_internal _ _ _ _ (Nat.le_add_right _ _)

/-- At most one error is logged, and it is not about a context without a handler. -/
inductive Logs (d : Device cfg H) : Device cfg H → Prop
  | nothing : Logs d d
  | report {r : Report} (h : ¬r.IsNullHandler) : Logs d (d.log r)

theorem Logs.quiet {d d' : Device cfg H} (h : Logs d d') : Quiet d d' := by
  rcases h with _ | _
  · exact .refl d
  · exact d.quiet_log _

theorem Logs.buffers {d d' : Device cfg H} (h : Logs d d') :
    d'.tmpData = d.tmpData ∧ d'.packetDecoder = d.packetDecoder := by
  rcases h with _ | _ <;> exact ⟨rfl, rfl⟩

/-- The effect of an attempt to send a packet. -/
structure Transmits (d d' : Device cfg H) (start : ℕ) (p : Packet (List UInt8)) (tx : TxAnswers)
    (x : Transmission) : Prop extends Frame d d' where
  tmpData : d'.tmpData = d.tmpData
  decoder : d'.packetDecoder = d.packetDecoder
  trace : d'.trace = d.trace ++ [.transmitted x]
  sent : d'.sent = d.sent ++ x.bytes
  timer : d'.preFlagTimer
    = if x.outcome.IsShort then .set x.finish (UInt32.ofNat (preFlagTimeoutMillis + 1))
      else .reset x.reset
  packet : x.packet = p
  data_le : p.data.length ≤ cfg.maxPacketDataLen
  started : x.start = start
  checked : x.checked = d.now + tx.flushMillis
  preFlag : x.preFlag = d.preFlagDue x.checked
  outcome : x.outcome = .ofSize cfg (Packet.wire x.preFlag p).length tx
  bytes : x.bytes = (Packet.wire x.preFlag p).take x.outcome.written
  checked_le : x.checked ≤ x.reset
  reset_le : x.reset ≤ x.finish
  now : d'.now = x.finish

theorem Transmits.receiver {d d' : Device cfg H} {start : ℕ} {p : Packet (List UInt8)}
    {tx : TxAnswers} {x : Transmission} (h : Transmits d d' start p tx x) :
    d'.packetDecoder.receiver = d.packetDecoder.receiver := by
  rw [h.decoder]

theorem Transmits.now_le {d d' : Device cfg H} {start : ℕ} {p : Packet (List UInt8)}
    {tx : TxAnswers} {x : Transmission} (h : Transmits d d' start p tx x) : d.now ≤ d'.now := by
  rw [h.now]
  refine le_trans ?_ (h.checked_le.trans h.reset_le)
  rw [h.checked]
  exact Nat.le_add_right _ _

theorem txOutcome_encodePacket (e : SerialPacketsEncoder cfg) (p : Packet (SerialPacketsData cfg))
    (preFlag : Bool) (out : StuffedPacketBuffer cfg) (tx : TxAnswers) :
    txOutcome (e.encodePacket p preFlag out) tx
      = .ofSize cfg (Packet.wire preFlag (p.map SerialPacketsBuffer.contents)).length tx := by
  have hok := e.encodePacket_ok_iff p preFlag out
  have hcontents := e.contents_encodePacket p preFlag out
  rw [txOutcome, TxOutcome.ofSize]
  by_cases hfits : (e.encodePacket p preFlag out).ok = true
  · rw [if_pos hfits] at hcontents
    have hsize : (e.encodePacket p preFlag out).out.size
        = (Packet.wire preFlag (p.map SerialPacketsBuffer.contents)).length := by
      rw [← hcontents, SerialPacketsBuffer.length_contents]
    rw [if_neg (by rw [hfits]; exact Bool.false_ne_true.symm),
      if_neg (Nat.not_le_of_lt (hok.mp hfits)), hsize]
  · rw [if_pos (Bool.not_eq_true _ ▸ hfits), if_pos (Nat.le_of_not_lt fun h ↦ hfits (hok.mpr h))]

/-- **Every attempt to send** has this effect, and returns its outcome. -/
theorem transmit_spec (d : Device cfg H) (start : ℕ) (p : Packet (SerialPacketsData cfg))
    (tx : TxAnswers) :
    ∃ x, Transmits d (d.transmit start p tx).2 start (p.map SerialPacketsBuffer.contents) tx x ∧
      (d.transmit start p tx).1 = x.outcome := by
  have hdata : (p.map SerialPacketsBuffer.contents).data.length ≤ cfg.maxPacketDataLen := by
    rw [Packet.data_map]
    exact SerialPacketsData.length_contents_le _
  have houtcome := txOutcome_encodePacket (d.checkPreFlag tx).packetEncoder p
    (d.preFlagDue (d.now + tx.flushMillis)) (d.checkPreFlag tx).tmpStuffedPacket tx
  have hcontents := (d.checkPreFlag tx).packetEncoder.contents_encodePacket p
    (d.preFlagDue (d.now + tx.flushMillis)) (d.checkPreFlag tx).tmpStuffedPacket
  rw [transmit]
  dsimp only
  -- the encoder counts only through the size and the contents of its output
  generalize hr : (d.checkPreFlag tx).packetEncoder.encodePacket p
    (d.preFlagDue (d.now + tx.flushMillis)) (d.checkPreFlag tx).tmpStuffedPacket = r
    at houtcome hcontents ⊢
  cases ho : txOutcome r tx with
  | encodeFailed =>
    refine ⟨_, ⟨⟨rfl, rfl, rfl, rfl, rfl, rfl⟩, rfl, rfl, rfl, ?_, rfl, rfl, hdata, rfl, rfl,
      rfl, ?_, rfl, Nat.le_add_right _ _, le_refl _, rfl⟩, rfl⟩
    · exact (List.append_nil _).symm
    · rw [← houtcome, ho]
  | noRoom size available =>
    refine ⟨_, ⟨⟨rfl, rfl, rfl, rfl, rfl, rfl⟩, rfl, rfl, rfl, ?_, rfl, rfl, hdata, rfl, rfl,
      rfl, ?_, rfl, Nat.le_add_right _ _, le_refl _, rfl⟩, rfl⟩
    · exact (List.append_nil _).symm
    · rw [← houtcome, ho]
  | wrote written size =>
    have hok : r.ok = true := by
      by_contra hok
      rw [txOutcome, if_pos (Bool.not_eq_true _ ▸ hok)] at ho
      exact absurd ho (by simp)
    rw [if_pos hok] at hcontents
    have hbytes := congrArg (List.take written) hcontents
    dsimp only
    by_cases hshort : written < size
    · rw [if_pos hshort]
      refine ⟨_, ⟨⟨rfl, rfl, rfl, rfl, rfl, rfl⟩, rfl, rfl, rfl, rfl, (if_pos ?_).symm, rfl,
        hdata, rfl, rfl, rfl, ?_, hbytes, Nat.le_add_right _ _, Nat.le_add_right _ _, rfl⟩, rfl⟩
      · exact hshort
      · rw [← houtcome, ho]
    · rw [if_neg hshort]
      refine ⟨_, ⟨⟨rfl, rfl, rfl, rfl, rfl, rfl⟩, rfl, rfl, rfl, rfl, (if_neg ?_).symm, rfl,
        hdata, rfl, rfl, rfl, ?_, hbytes, Nat.le_add_right _ _, Nat.le_add_right _ _, rfl⟩, rfl⟩
      · exact hshort
      · rw [← houtcome, ho]

/-! ## Histories -/

/-- What is read off the events of a device, in order. -/
def history {β : Type*} (f : Event cfg H → Option β) (d : Device cfg H) : List β :=
  d.trace.filterMap f

section History

variable {β : Type*} (f : Event cfg H → Option β) {d d' : Device cfg H}

theorem history_append {events : List (Event cfg H)} (h : d'.trace = d.trace ++ events) :
    d'.history f = d.history f ++ events.filterMap f := by
  rw [history, h, List.filterMap_append]
  rfl

private theorem history_concat {e : Event cfg H} (h : d'.trace = d.trace ++ [e]) :
    d'.history f = d.history f ++ (f e).toList := by
  rw [history_append f h, List.filterMap_cons]
  cases f e <;> rfl

theorem Still.history (h : Still d d') : d'.history f = d.history f := by
  rw [Device.history, h.trace]
  rfl

theorem Transmits.history {start : ℕ} {p : Packet (List UInt8)} {tx : TxAnswers} {x : Transmission}
    (h : Transmits d d' start p tx x) :
    d'.history f = d.history f ++ (f (.transmitted x)).toList := history_concat f h.trace

theorem history_emit (d : Device cfg H) (e : Event cfg H) :
    (d.emit e).history f = d.history f ++ (f e).toList := history_concat f rfl

theorem history_assignCmdId (d : Device cfg H) :
    d.assignCmdId.history f
      = d.history f ++ (f (.idAssigned (nextCmdId d.cmdIdCounter))).toList :=
  history_concat f (e := .idAssigned (nextCmdId d.cmdIdCounter)) rfl

theorem history_setUpContext (d : Device cfg H) (slot : Fin cfg.maxPendingCommands)
    (cmdId : UInt32) (handler : H) (timeoutMillis : UInt16) :
    (d.setUpContext slot cmdId handler timeoutMillis).history f
      = d.history f ++ (f (.accepted slot cmdId handler)).toList :=
  history_concat f (e := .accepted slot cmdId handler) rfl

theorem history_clearContext (d : Device cfg H) (slot : Fin cfg.maxPendingCommands) :
    (d.clearContext slot).history f = d.history f ++ (f (.released slot)).toList :=
  history_concat f (e := .released slot) rfl

end History

/-! ## `sendMessage` -/

/-- What `sendMessage` does: nothing before `begin`, and otherwise one attempt, after which it
returns `true` unless the packet was never offered to the stream. -/
theorem sendMessage_cases (d : Device cfg H) (endpoint : UInt8) (data : SerialPacketsData cfg)
    (tx : TxAnswers) :
    d.begun = false ∧ d.sendMessage endpoint data tx = (false, d) ∨
      d.begun = true ∧ ∃ d₁ x, d₁ = (d.transmit d.now (.message endpoint data) tx).2 ∧
        Transmits d d₁ d.now (.message endpoint data.contents) tx x ∧
          Logs d₁ (d.sendMessage endpoint data tx).2 ∧
          ((d.sendMessage endpoint data tx).1 = true ↔ ¬x.outcome.IsFailed) := by
  cases hbegun : d.begun with
  | false => exact Or.inl ⟨rfl, if_pos hbegun⟩
  | true =>
    obtain ⟨x, htx, ho⟩ := d.transmit_spec d.now (.message endpoint data) tx
    refine Or.inr ⟨rfl, _, x, rfl, htx, ?_⟩
    rw [sendMessage, if_neg (by rw [hbegun]; exact Bool.false_ne_true.symm), ← ho]
    rcases d.transmit d.now (.message endpoint data) tx with ⟨_ | ⟨size, available⟩ |
      ⟨written, size⟩, d₁⟩
    · exact ⟨.report id, iff_of_false Bool.false_ne_true (not_not.mpr trivial)⟩
    · exact ⟨.report id, iff_of_false Bool.false_ne_true (not_not.mpr trivial)⟩
    · refine ⟨?_, iff_of_true rfl id⟩
      dsimp only
      split
      · exact .report id
      · exact .nothing

/-! ## `sendCommand` -/

theorem nextCmdId_ne_zero (counter : UInt32) : nextCmdId counter ≠ 0 := by
  rw [nextCmdId]
  split
  · rename_i h
    rw [h]
    decide
  · assumption

theorem cmdId_of_findContextWithCmdId {d : Device cfg H} {cmdId : UInt32}
    {slot : Fin cfg.maxPendingCommands} (h : d.findContextWithCmdId cmdId = some slot) :
    (d.commandContexts slot).cmdId = cmdId := by
  simpa using List.find?_some h

/-- The call of `sendCommand` gets as far as sending. -/
def ReachesStream (d : Device cfg H) (responseHandler : Option H) (timeoutMillis : UInt16) : Prop :=
  d.begun = true ∧ responseHandler ≠ none ∧ timeoutMillis ≤ maxCmdTimeoutMillis ∧
    d.findContextWithCmdId 0 ≠ none

/-- What `sendCommand` does: nothing, if it does not get as far as sending; otherwise one attempt
with a new id, and then the context of the first free slot is set up if every byte was accepted. -/
theorem sendCommand_cases (d : Device cfg H) (endpoint : UInt8) (data : SerialPacketsData cfg)
    (responseHandler : Option H) (timeoutMillis : UInt16) (tx : TxAnswers) :
    ¬d.ReachesStream responseHandler timeoutMillis ∧
        (d.sendCommand endpoint data responseHandler timeoutMillis tx).1 = .failed ∧
        Logs d (d.sendCommand endpoint data responseHandler timeoutMillis tx).2 ∨
      d.ReachesStream responseHandler timeoutMillis ∧ ∃ slot handler d₁ x,
        d₁ = (d.assignCmdId.transmit d.now
            (.command (nextCmdId d.cmdIdCounter) endpoint data) tx).2 ∧
          responseHandler = some handler ∧ d.findContextWithCmdId 0 = some slot ∧
          Transmits d.assignCmdId d₁ d.now
            (.command (nextCmdId d.cmdIdCounter) endpoint data.contents) tx x ∧
          (¬x.outcome.IsComplete ∧
              (d.sendCommand endpoint data responseHandler timeoutMillis tx).1 = .failed ∧
              Logs d₁ (d.sendCommand endpoint data responseHandler timeoutMillis tx).2 ∨
            x.outcome.IsComplete ∧
              d.sendCommand endpoint data responseHandler timeoutMillis tx
                = (⟨true, nextCmdId d.cmdIdCounter⟩,
                    d₁.setUpContext slot (nextCmdId d.cmdIdCounter) handler timeoutMillis)) := by
  rw [ReachesStream, sendCommand.eq_def]
  cases hbegun : d.begun with
  | false => exact Or.inl ⟨fun h ↦ Bool.false_ne_true h.1, rfl, .nothing⟩
  | true =>
    rw [if_neg Bool.false_ne_true.symm]
    cases responseHandler with
    | none => exact Or.inl ⟨fun h ↦ h.2.1 rfl, rfl, .report id⟩
    | some handler =>
      dsimp only
      by_cases htimeout : timeoutMillis > maxCmdTimeoutMillis
      · rw [if_pos htimeout]
        exact Or.inl ⟨fun h ↦ absurd h.2.2.1 (UInt16.not_le.mpr htimeout), rfl, .report id⟩
      · rw [if_neg htimeout]
        cases hslot : d.findContextWithCmdId 0 with
        | none => exact Or.inl ⟨fun h ↦ h.2.2.2 rfl, rfl, .report id⟩
        | some slot =>
          obtain ⟨x, htx, ho⟩ := d.assignCmdId.transmit_spec d.now
            (.command (nextCmdId d.cmdIdCounter) endpoint data) tx
          refine Or.inr ⟨⟨rfl, Option.some_ne_none _, UInt16.not_lt.mp htimeout,
            Option.some_ne_none _⟩, slot, handler, _, x, rfl, rfl, rfl, htx, ?_⟩
          have hle (written size : ℕ) (h : x.outcome = .wrote written size) : written ≤ size := by
            rw [htx.outcome, TxOutcome.ofSize_eq_wrote_iff] at h
            rw [h.2.2.1, h.2.2.2]
            exact Nat.min_le_right _ _
          -- forget how the attempt was made: only its outcome decides what comes next
          rw [← ho] at hle ⊢
          have hid : nextCmdId d.cmdIdCounter = d.assignCmdId.cmdIdCounter := rfl
          rw [hid] at hle ⊢
          dsimp only
          clear ho htx
          generalize d.assignCmdId.transmit d.now
            (.command d.assignCmdId.cmdIdCounter endpoint data) tx = result at hle ⊢
          rcases result with ⟨_ | ⟨size, available⟩ | ⟨written, size⟩, d₁⟩
          · exact Or.inl ⟨id, rfl, .report id⟩
          · exact Or.inl ⟨id, rfl, .report id⟩
          · dsimp only
            by_cases hshort : written < size
            · rw [if_pos hshort]
              exact Or.inl ⟨Nat.ne_of_lt hshort, rfl, .report id⟩
            · rw [if_neg hshort]
              exact Or.inr ⟨Nat.le_antisymm (hle written size rfl) (Nat.le_of_not_lt hshort), rfl⟩

end Device

end SerialPackets

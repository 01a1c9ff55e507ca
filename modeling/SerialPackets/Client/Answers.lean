import SerialPackets.Client.CommandIds
import SerialPackets.Client.Completion
import SerialPackets.Client.Deadlines

/-!
# Answers

A response is taken for the pending command that has its id, whoever sent it. While no id has been
assigned twice, this is the command that the peer has answered, and each command is settled in one
of two ways: its handler is called with the status and the data of the first response with its id
that is received after the command was sent, or for a timeout. Then all further responses with this
id find nobody, whatever the table is used for in the meantime (`settlement_of_run`).

That an id finds its own command follows from the ledger of ids; that no handler is called twice
follows from the accounts of the slots, since the ids of accepted commands are distinct.

In the other direction, a client tries to send one response for each command that it receives and
has a handler for, in the order of the commands and with their ids, and no others
(`exchanges_of_run`).
-/

namespace SerialPackets

variable {cfg : Config} {H : Type*}

/-- The status and the data that a packet answers a command with. -/
def Packet.answerTo? {D : Type*} (cmdId : UInt32) : Packet D → Option (UInt8 × D)
  | response cmdId' status data => if cmdId' = cmdId then some (status, data) else none
  | command _ _ _ | message _ _ => none

def Packet.isCommand {D : Type*} : Packet D → Bool
  | command _ _ _ => true
  | response _ _ _ | message _ _ => false

/-- A command that the command handler has returned from, with the response it has filled in. -/
def Event.exchange? : Event cfg H → Option (Packet (List UInt8) × Packet (List UInt8))
  | .commandReturn cmdId endpoint data status response =>
    some (.command cmdId endpoint data, .response cmdId status response)
  | _ => none

/-- The call of a handler for an id, with what the handler is told. -/
def Event.callFor? (cmdId : UInt32) : Event cfg H → Option (H × UInt8 × List UInt8 × Origin)
  | .responseCall _ handler cmdId' status data origin =>
    if cmdId' = cmdId then some (handler, status, data, origin) else none
  | _ => none

namespace Device

variable {react : ℕ → Reaction cfg H} {d d' : Device cfg H} {cmdId : UInt32}
  {handler : H} {slot : Fin cfg.maxPendingCommands} {bytes : List UInt8}

/-- The answers to a command in a byte sequence that the client receives. -/
def answers (d : Device cfg H) (cmdId : UInt32) (bytes : List UInt8) :
    List (UInt8 × List UInt8) :=
  (decodedPackets cfg d.packetDecoder.receiver bytes).filterMap (Packet.answerTo? cmdId)

private theorem answers_append {m : Device cfg H} (h : Moves d bytes m) (cmdId : UInt32)
    (more : List UInt8) : d.answers cmdId (bytes ++ more)
      = d.answers cmdId bytes ++ m.answers cmdId more := by
  rw [answers, answers, answers, decodedPackets_append, (Moves.frame h).2, List.filterMap_append]

private theorem answers_singleton (b : UInt8) :
    d.answers cmdId [b] = ((d.packetDecoder.reportAt b).bind (Packet.answerTo? cmdId)).toList := by
  rw [answers, decodedPackets_singleton, ← SerialPacketsDecoder.reportAt_eq]
  cases d.packetDecoder.reportAt b with
  | none => rfl
  | some p =>
    rw [Option.toList_some, Option.bind_some]
    cases h : p.answerTo? cmdId with
    | none => exact List.filterMap_cons_none h
    | some answer => exact List.filterMap_cons_some h

/-! ## The books -/

/-- What every move keeps about ids and slots. -/
structure IdBooks (d : Device cfg H) : Prop where
  ids : IdLedger d
  sends : SendLedger d
  slots : ∀ slot, d.SlotAccounts slot

theorem IsFresh.idBooks (h : IsFresh d) : IdBooks d := ⟨h.idLedger, h.sendLedger, h.slotAccounts⟩

theorem IdBooks.moves (h : IdBooks d) (hmoves : Moves d bytes d') : IdBooks d' where
  ids := kept_idLedger.moves hmoves h.ids
  sends := kept_sendLedger.moves hmoves h.sends
  slots := Runs.Reaches.invariant hmoves (fun hmove ↦ hmove.slotAccounts) h.slots

/-- Fewer ids than there are have been assigned. -/
def FewIds (d : Device cfg H) : Prop := (d.history Event.assigned?).length < 2 ^ 32 - 1

instance : DecidablePred (FewIds : Device cfg H → Prop) := fun d ↦
  inferInstanceAs (Decidable ((d.history Event.assigned?).length < 2 ^ 32 - 1))

private theorem FewIds.of_moves (h : FewIds d') (hmoves : Moves d bytes d') : FewIds d :=
  lt_of_le_of_lt (Moves.history_prefix Event.assigned? hmoves).length_le h

/-- **An id finds its own command.** -/
theorem IdBooks.findContextWithCmdId (h : IdBooks d) (hfew : FewIds d)
    (hslot : (d.commandContexts slot).pending? = some (cmdId, handler)) :
    d.findContextWithCmdId cmdId = some slot := by
  obtain ⟨hpending, hid, hhandler⟩ := CommandContext.pending?_eq_some_iff.mp hslot
  rcases hfind : d.findContextWithCmdId cmdId with _ | found
  · rw [Device.findContextWithCmdId, List.find?_eq_none] at hfind
    exact absurd (decide_eq_true hid) (hfind slot (List.mem_finRange slot))
  · have hfound := cmdId_of_findContextWithCmdId hfind
    obtain ⟨handler', hhandler', -⟩ := (h.slots found).exists_handler (hfound ▸ hpending)
    obtain ⟨since, hsince⟩ := h.ids.exists_pendingSince_iff.mpr ⟨hpending, hid, hhandler⟩
    obtain ⟨since', hsince'⟩ := h.ids.exists_pendingSince_iff.mpr ⟨hpending, hfound, hhandler'⟩
    rw [h.ids.eq_of_cmdId_eq (shortlyPending_of_length_lt hfew) hsince hsince']

private theorem history_callFor (d : Device cfg H) (cmdId : UInt32) :
    (d.history (Event.callFor? cmdId)).length = (d.handlerCalls.map Prod.fst).count cmdId := by
  rw [history, handlerCalls, history, List.map_filterMap, List.count, List.countP_filterMap,
    List.length_filterMap_eq_countP]
  congr 1
  funext e
  cases e with
  | responseCall slot handler cmdId' status data origin =>
    by_cases heq : cmdId' = cmdId <;> simp [Event.callFor?, Event.called?, heq]
  | _ => rfl

/-- **No handler is called twice for an id**, nor while its command is pending. -/
theorem IdBooks.count_le_one (h : IdBooks d) (hfew : FewIds d) (cmdId : UInt32) :
    (d.handlerCalls.map Prod.fst).count cmdId
      + (d.pendingCommands.map Prod.fst).count cmdId ≤ 1 := by
  have hlt : (d.history Event.assigned?).length < 2 ^ 32 := hfew.trans_le (Nat.sub_le _ _)
  have hnodup : (d.acceptances.map Prod.fst).Nodup := by
    have hsub := h.sends.accepted
    rw [(h.sends.numbered hlt).1] at hsub
    exact (nodup_firstIds hlt).sublist hsub
  have hcount := List.nodup_iff_count_le_one.mp hnodup cmdId
  rwa [← Multiset.coe_count, ← Multiset.map_coe, (callsOnce_of_slotAccounts h.slots).partition,
    Multiset.map_add, Multiset.count_add, Multiset.map_coe, Multiset.coe_count] at hcount

private theorem IdBooks.history_callFor_of_pending (h : IdBooks d) (hfew : FewIds d)
    (hslot : (d.commandContexts slot).pending? = some (cmdId, handler)) :
    d.history (Event.callFor? cmdId) = [] := by
  have hcount := h.count_le_one hfew cmdId
  have hmem : cmdId ∈ d.pendingCommands.map Prod.fst := by
    refine Multiset.mem_map_of_mem Prod.fst (a := (cmdId, handler)) ?_
    rw [pendingCommands, Multiset.mem_sum]
    exact ⟨slot, Finset.mem_univ slot, by rw [hslot]; exact Multiset.mem_singleton_self _⟩
  have hpos := Multiset.count_pos.mpr hmem
  rw [← List.length_eq_zero_iff, history_callFor]
  omega

/-! ## Settlements -/

/-- What has become of an accepted command, and of the answers to it. -/
inductive Settlement (d : Device cfg H) (cmdId : UInt32) (handler : H)
    (answers : List (UInt8 × List UInt8)) : Prop
  | waiting (slot : Fin cfg.maxPendingCommands)
      (hslot : (d.commandContexts slot).pending? = some (cmdId, handler))
      (hcalls : d.history (Event.callFor? cmdId) = []) (hanswers : answers = [])
  | answered (status : UInt8) (data : List UInt8)
      (hcalls : d.history (Event.callFor? cmdId) = [(handler, status, data, .response)])
      (hfirst : answers.head? = some (status, data))
  | timedOut (hcalls : d.history (Event.callFor? cmdId) = [(handler, statusTimeout, [], .cleanup)])

private theorem Stride.settlement_cases (h : Stride react d bytes d')
    (hslot : (d.commandContexts slot).pending? = some (cmdId, handler))
    (hfind : d.findContextWithCmdId cmdId = some slot) :
    (SlotStill d d' slot ∧ d.answers cmdId bytes = []) ∨
      (∃ status data, d.answers cmdId bytes = [(status, data)] ∧
        FirstEvent d d' slot (.responseCall slot handler cmdId status data .response)) ∨
      FirstEvent d d' slot (timeoutCall slot cmdId handler) := by
  obtain ⟨hpending, hid, hhandler⟩ := CommandContext.pending?_eq_some_iff.mp hslot
  have hne : (d.commandContexts slot).cmdId ≠ 0 := hid ▸ hpending
  cases h with
  | sends h => exact Or.inl ⟨(h.slotGrows slot).still_of_pending hne, rfl⟩
  | begin => exact Or.inl ⟨d.slotStill_begin slot, rfl⟩
  | byte b =>
    rw [answers_singleton]
    rcases slot_decodeByte react b hid hpending hhandler with
      ⟨hstill, hnone⟩ | ⟨status, data, hreport, hfirst⟩
    · refine Or.inl ⟨hstill, ?_⟩
      cases hreport : d.packetDecoder.reportAt b with
      | none => rfl
      | some p =>
        cases p with
        | response cmdId' status data =>
          rw [Option.bind_some, Packet.answerTo?, if_neg]
          · rfl
          · rintro rfl
            exact hnone status data hreport hfind
        | _ => rfl
    · refine Or.inr (Or.inl ⟨status, data, ?_, hfirst⟩)
      rw [hreport, Option.bind_some, Packet.answerTo?, if_pos rfl]
      rfl
  | cleanup millisNow other =>
    by_cases hother : slot = other
    · subst hother
      by_cases hleft : ((d.commandContexts slot).expirationTimeMillis
          - millisNow).toBitVec.toInt > 0
      · rw [cleanupSlot_of_early react millisNow hleft]
        exact Or.inl ⟨⟨rfl, rfl⟩, rfl⟩
      · obtain ⟨htrace, -⟩ :=
          slotTrace_cleanupSlot_of_overdue react millisNow hid hpending hhandler hleft
        exact Or.inr (Or.inr ⟨_, htrace⟩)
    · exact Or.inl ⟨(slotGrows_cleanupSlot react millisNow hother).still_of_pending hne, rfl⟩

private theorem IdBooks.history_callFor_of_firstEvent (h : IdBooks d') (hfew : FewIds d')
    {status : UInt8} {data : List UInt8} {origin : Origin}
    (hfirst : FirstEvent d d' slot (.responseCall slot handler cmdId status data origin)) :
    d'.history (Event.callFor? cmdId) = [(handler, status, data, origin)] := by
  have hmem : (handler, status, data, origin) ∈ d'.history (Event.callFor? cmdId) := by
    refine List.mem_filterMap.mpr ⟨.responseCall slot handler cmdId status data origin, ?_, ?_⟩
    · have hslot : .responseCall slot handler cmdId status data origin ∈ d'.slotTrace slot := by
        obtain ⟨rest, htrace⟩ := hfirst
        rw [htrace]
        exact List.mem_append_right _ List.mem_cons_self
      exact List.mem_of_mem_filter hslot
    · rw [Event.callFor?, if_pos rfl]
  have hcount := h.count_le_one hfew cmdId
  rw [← history_callFor] at hcount
  obtain ⟨call, hcall⟩ := List.length_eq_one_iff.mp
    (le_antisymm (Nat.le_of_add_right_le hcount) (List.length_pos_of_mem hmem))
  rw [hcall, List.mem_singleton] at hmem
  rw [hcall, ← hmem]

private theorem IdBooks.history_callFor_of_moves (h : IdBooks d') (hfew : FewIds d')
    (hmoves : Moves d bytes d') {call : H × UInt8 × List UInt8 × Origin}
    (hcalls : d.history (Event.callFor? cmdId) = [call]) :
    d'.history (Event.callFor? cmdId) = [call] := by
  have hcount := h.count_le_one hfew cmdId
  rw [← history_callFor] at hcount
  have hgrows := Moves.history_prefix (Event.callFor? cmdId) hmoves
  rw [hcalls] at hgrows
  exact (hgrows.eq_of_length_le (Nat.le_of_add_right_le hcount)).symm

/-- **A run of strides**: what concerns the command first, settles it. -/
theorem Strides.settlement (h : Strides react d bytes d') (hbooks : IdBooks d)
    (hfew : FewIds d') (hslot : (d.commandContexts slot).pending? = some (cmdId, handler)) :
    Settlement d' cmdId handler (d.answers cmdId bytes) := by
  induction h with
  | refl =>
    exact .waiting slot hslot (hbooks.history_callFor_of_pending hfew hslot) rfl
  | @tail m m' pre post hrun hstride ih =>
    have hbooks' := (hbooks.moves (Strides.moves hrun)).moves hstride.moves
    have hfew' : FewIds m := hfew.of_moves hstride.moves
    rw [answers_append (Strides.moves hrun)]
    rcases ih hfew' with ⟨slot', hslot', -, hanswers⟩ | ⟨status, data, hcalls, hfirst⟩ | ⟨hcalls⟩
    · -- nothing has concerned the command before this stride
      have hfind := (hbooks.moves (Strides.moves hrun)).findContextWithCmdId hfew' hslot'
      rw [hanswers, List.nil_append]
      rcases hstride.settlement_cases hslot' hfind with
        ⟨⟨-, hcontext⟩, hnone⟩ | ⟨status, data, hone, hcall⟩ | hcall
      · rw [← hcontext] at hslot'
        exact .waiting slot' hslot' (hbooks'.history_callFor_of_pending hfew hslot') hnone
      · exact .answered status data (hbooks'.history_callFor_of_firstEvent hfew hcall)
          (by rw [hone]; rfl)
      · exact .timedOut (hbooks'.history_callFor_of_firstEvent hfew hcall)
    · refine .answered status data
        (hbooks'.history_callFor_of_moves hfew hstride.moves hcalls) ?_
      rw [List.head?_append, hfirst]
      rfl
    · exact .timedOut (hbooks'.history_callFor_of_moves hfew hstride.moves hcalls)

/-- **The first answer counts.** In the run of a client, let `sendCommand` return `true` to a
program that calls it between two operations, and let fewer ids than there are be assigned in all.
Whatever callbacks, streams, clocks and input do, the handler of the command has since been called
for nothing if no response with its id was received, or for a timeout, or else, and once only, with
the status and the data of the first response with its id among the packets in the bytes received
since. -/
theorem settlement_of_run (react : ℕ → Reaction cfg H) (pre post : List (Op cfg H))
    {d₀ : Device cfg H} (hfresh : IsFresh d₀) (hpre : Runs.run (step react) d₀ pre = some d)
    (endpoint : UInt8) (data : SerialPacketsData cfg) (responseHandler : Option H)
    (timeoutMillis : UInt16) (tx : TxAnswers)
    (hok : (d.sendCommand endpoint data responseHandler timeoutMillis tx).1.ok = true)
    (hpost : Runs.run (step react)
      (d.sendCommand endpoint data responseHandler timeoutMillis tx).2 post = some d')
    (hfew : FewIds d') :
    let sent := d.sendCommand endpoint data responseHandler timeoutMillis tx
    ∃ handler, responseHandler = some handler ∧ Settlement d' sent.1.cmdId handler
      (sent.2.answers sent.1.cmdId
        (received sent.2.ignoreRxForTesting sent.2.begun post)) := by
  intro sent
  obtain ⟨hpending, -, slot, handler, hhandler, hcontext⟩ :=
    d.exists_context_sendCommand endpoint data responseHandler timeoutMillis tx hok
  obtain ⟨bytes, hmoves⟩ := moves_run react hpre
  have hbooks : IdBooks sent.2 := (hfresh.idBooks.moves hmoves).moves
    (d.sends_sendCommand endpoint data responseHandler timeoutMillis tx).moves
  have hslot : (sent.2.commandContexts slot).pending? = some (sent.1.cmdId, handler) :=
    CommandContext.pending?_eq_some_iff.mpr ⟨hpending, by rw [hcontext], by rw [hcontext]⟩
  exact ⟨handler, hhandler,
    Strides.settlement (strides_run hpost) hbooks hfew hslot⟩

/-- A command and two responses to it, which say different things. -/
theorem settlement_of_run_twoResponses :
    let sent := begunClient.sendCommand 0 noBytes (some ()) 1000 ⟨0, 0, 100, 100, 0⟩
    let bytes := wires [(true, .response 1 5 [7]), (false, .response 1 6 [])]
    let post : List (Op Config.default Unit) := [.loop ⟨bytes.length, [⟨0, bytes⟩], 0, 0⟩]
    ∃ d, Runs.run (step idle) sent.2 post = some d ∧
      sent.2.answers 1 bytes = [(5, [7]), (6, [])] ∧ ∃ handler, some () = some handler ∧
        Settlement d 1 handler (sent.2.answers 1 (received false true post)) := by
  intro sent bytes post
  have hall : (Runs.run (step idle) sent.2 post).isSome ∧
      ∀ d ∈ Runs.run (step idle) sent.2 post, FewIds d := by decide +kernel
  have hrun := (Option.some_get hall.1).symm
  exact ⟨_, hrun, by decide +kernel, settlement_of_run idle [.begin] post
    (isFresh_create none none 0) rfl 0 noBytes (some ()) 1000 ⟨0, 0, 100, 100, 0⟩
    (by decide +kernel) hrun (hall.2 _ hrun)⟩

/-! ## Answers given -/

/-- **Every command is answered once.** In every run of a client, the command handler has returned
from the commands in the bytes passed to the decoder, if there is such a handler, in order and once
each; and the responses the client has tried to send are what the handler has filled in for each of
them, with the id of the command, in the same order. No other response is sent, whatever callbacks,
streams and clocks do. -/
theorem exchanges_of_run (react : ℕ → Reaction cfg H) (ops : List (Op cfg H)) {d₀ : Device cfg H}
    (hfresh : IsFresh d₀) (hrun : Runs.run (step react) d₀ ops = some d) :
    (d.history Event.exchange?).map Prod.fst
        = ((decodedPackets cfg .dropped (received false false ops)).filter d₀.handles).filter
            Packet.isCommand ∧
      (d.history Event.exchange?).map Prod.snd = d.history Event.answer? ∧
      (d.history Event.answer?).map Packet.responseId?
        = (((decodedPackets cfg .dropped (received false false ops)).filter d₀.handles).filter
            Packet.isCommand).map Packet.commandId? := by
  obtain ⟨bytes, hmoves⟩ := moves_run react hrun
  have hledger : CallLedger d :=
    Runs.Reaches.invariant hmoves (fun hmove ↦ hmove.callLedger) hfresh.callLedger
  have hcommands : (d.history Event.exchange?).map Prod.fst
      = (d.history Event.request?).filter Packet.isCommand := by
    have hfst : (d.history Event.exchange?).map Prod.fst = d.history Event.returnedCommand? := by
      rw [history, List.map_filterMap]
      congr 1
      funext e
      cases e <;> rfl
    rw [hfst, hledger.returns, history, history, ← List.filterMap_eq_filter,
      List.filterMap_filterMap]
    congr 1
    funext e
    cases e <;> rfl
  have hresponses : (d.history Event.exchange?).map Prod.snd = d.history Event.answer? := by
    rw [hledger.answers, history, List.map_filterMap]
    congr 1
    funext e
    cases e <;> rfl
  have hids : (d.history Event.exchange?).map (Packet.responseId? ∘ Prod.snd)
      = (d.history Event.exchange?).map (Packet.commandId? ∘ Prod.fst) := by
    rw [history, List.map_filterMap, List.map_filterMap]
    congr 1
    funext e
    cases e <;> rfl
  rw [hfresh.requests hrun] at hcommands
  refine ⟨hcommands, hresponses, ?_⟩
  rw [← hresponses, ← hcommands, List.map_map, List.map_map, hids]

/-- A callback that sets the status of the response. -/
def refusing (_ : ℕ) : Reaction Config.default Unit :=
  ⟨[.setStatus 3], ⟨0, 0, 100, 100, 0⟩⟩

/-- Two commands, and a message in between. -/
theorem exchanges_of_run_twoCommands :
    let bytes := wires [(true, .command 5 2 [1]), (false, .message 1 []), (false, .command 6 2 [])]
    let ops : List (Op Config.default Unit) := [.begin, .loop ⟨bytes.length, [⟨0, bytes⟩], 0, 0⟩]
    ∃ d, Runs.run (step refusing) (create (some ()) none 0) ops = some d ∧
      (d.history Event.exchange?).map Prod.fst = [.command 5 2 [1], .command 6 2 []] ∧
      (d.history Event.answer?).map Packet.responseId? = [some 5, some 6] := by
  intro bytes ops
  have hsome : (Runs.run (step refusing) (create (some ()) none 0) ops).isSome := by
    decide +kernel
  have hrun := (Option.some_get hsome).symm
  have hcommands : ((decodedPackets Config.default .dropped (received false false ops)).filter
      (create (some ()) none 0 : Device Config.default Unit).handles).filter Packet.isCommand
        = [.command 5 2 [1], .command 6 2 []] := by
    decide +kernel
  obtain ⟨hfst, -, hids⟩ :=
    exchanges_of_run refusing ops (isFresh_create (some ()) none 0) hrun
  rw [hcommands] at hfst hids
  exact ⟨_, hrun, hfst, hids⟩

end Device

end SerialPackets

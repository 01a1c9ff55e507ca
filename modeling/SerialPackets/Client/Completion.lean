import SerialPackets.Client.Delivery
import SerialPackets.Client.Dispatch
import SerialPackets.Client.History

/-!
# Completion on a line

On a lossless line, what the handlers of one side have been called for is at all times a prefix of
what the other side has written: commands and messages are handled in order, none is left out and
none is handled twice (`requests_prefix_of_run`). Once both channels are drained, every command that
was accepted has been settled: the pending table is empty, and each response handler has been called
once, with what the command handler at the other end has returned for the command or with a timeout
(`settled_of_run`).

Both results need more than the moves of a client say, namely that a byte that completes a packet
does have it dispatched; they rest on the strides.
-/

namespace SerialPackets

open Framing
open scoped List

variable {cfg : Config} {H : Type*}

/-- The id that a response answers. -/
def Packet.responseId? {D : Type*} : Packet D → Option UInt32
  | response cmdId _ _ => some cmdId
  | _ => none

namespace Device

variable {react : ℕ → Reaction cfg H} {d d' : Device cfg H}

/-! ## Responses are handed over -/

/-- How often the handler of a command with this id has been called. -/
def callCount (d : Device cfg H) (cmdId : UInt32) : ℕ := (d.handlerCalls.map Prod.fst).count cmdId

/-- How often a command with this id has been accepted. -/
def acceptCount (d : Device cfg H) (cmdId : UInt32) : ℕ := (d.acceptances.map Prod.fst).count cmdId

/-- How many responses with this id there are in the bytes that a device receives next. -/
def responseCount (d : Device cfg H) (cmdId : UInt32) (bytes : List UInt8) : ℕ :=
  ((decodedPackets cfg d.packetDecoder.receiver bytes).filterMap Packet.responseId?).count cmdId

private theorem responseCount_append {m : Device cfg H} {as : List UInt8} (h : Moves d as m)
    (cmdId : UInt32) (bs : List UInt8) :
    d.responseCount cmdId (as ++ bs) = d.responseCount cmdId as + m.responseCount cmdId bs := by
  rw [responseCount, decodedPackets_append, List.filterMap_append, List.count_append,
    ← (Moves.frame h).2]
  rfl

private theorem Moves.callCount_le {bytes : List UInt8} (h : Moves d bytes d') (cmdId : UInt32) :
    d.callCount cmdId ≤ d'.callCount cmdId :=
  ((Moves.history_prefix Event.called? h).map Prod.fst).sublist.count_le _

private theorem Moves.acceptCount_le {bytes : List UInt8} (h : Moves d bytes d') (cmdId : UInt32) :
    d.acceptCount cmdId ≤ d'.acceptCount cmdId :=
  ((Moves.history_prefix Event.accepted? h).map Prod.fst).sublist.count_le _

private theorem callCount_clearContext (d : Device cfg H) (slot : Fin cfg.maxPendingCommands)
    (cmdId : UInt32) : (d.clearContext slot).callCount cmdId = d.callCount cmdId := by
  rw [callCount, handlerCalls, history_clearContext]
  exact congrArg (fun calls : List (UInt32 × H) ↦ (calls.map Prod.fst).count cmdId)
    (List.append_nil _)

private theorem callCount_processDecodedResponsePacket (react : ℕ → Reaction cfg H)
    (hacc : ∀ slot, d.SlotAccounts slot) {cmdId : UInt32} {slot : Fin cfg.maxPendingCommands}
    (hslot : (d.commandContexts slot).cmdId = cmdId) (hpending : cmdId ≠ 0) (status : UInt8) :
    d.callCount cmdId
      < (d.processDecodedResponsePacket react cmdId status).callCount cmdId := by
  rw [processDecodedResponsePacket, if_neg hpending]
  rcases hfind : d.findContextWithCmdId cmdId with _ | found
  · rw [findContextWithCmdId, List.find?_eq_none] at hfind
    exact absurd (decide_eq_true hslot) (hfind slot (List.mem_finRange slot))
  · have hid := cmdId_of_findContextWithCmdId hfind
    obtain ⟨handler, hhandler, -⟩ := (hacc found).exists_handler (hid ▸ hpending)
    have hbody := moves_callResponseHandler react found handler cmdId status
      d.packetDecoder.decodedData.contents .response d
    have hgrows := Moves.callCount_le hbody.moves cmdId
    have hcalled : ({ d with calls := d.calls + 1 }.emit (.responseCall found handler cmdId status
        d.packetDecoder.decodedData.contents .response)).callCount cmdId
        = d.callCount cmdId + 1 := by
      rw [callCount, handlerCalls, history_emit, List.map_append, List.count_append]
      exact congrArg _ List.count_singleton_self
    dsimp only
    rw [hhandler]
    dsimp only
    rw [callCount_clearContext]
    omega

private theorem exists_pending_of_callCount_lt (hacc : ∀ slot, d.SlotAccounts slot)
    {cmdId : UInt32} (h : d.callCount cmdId < d.acceptCount cmdId) :
    cmdId ≠ 0 ∧ ∃ slot, (d.commandContexts slot).cmdId = cmdId := by
  have hcount : d.acceptCount cmdId
      = d.callCount cmdId + (d.pendingCommands.map Prod.fst).count cmdId := by
    rw [acceptCount, callCount, ← Multiset.coe_count, ← Multiset.map_coe,
      (callsOnce_of_slotAccounts hacc).partition, Multiset.map_add, Multiset.count_add,
      Multiset.map_coe, Multiset.coe_count]
  have hmem : cmdId ∈ d.pendingCommands.map Prod.fst := Multiset.count_pos.mp (by omega)
  obtain ⟨⟨id, handler⟩, hpending, rfl⟩ := Multiset.mem_map.mp hmem
  rw [pendingCommands, Multiset.mem_sum] at hpending
  obtain ⟨slot, -, hslot⟩ := hpending
  rw [Multiset.mem_coe, Option.mem_toList, CommandContext.pending?] at hslot
  split at hslot
  · exact absurd hslot (by simp)
  · rename_i hne
    obtain ⟨handler', -, heq⟩ := Option.map_eq_some_iff.mp hslot
    obtain ⟨rfl, rfl⟩ := Prod.mk.inj heq
    exact ⟨hne, slot, rfl⟩

private theorem Stride.callCount_add {bytes : List UInt8} (h : Stride react d bytes d')
    (hacc : ∀ slot, d.SlotAccounts slot) {cmdId : UInt32} (hpending : cmdId ≠ 0)
    {slot : Fin cfg.maxPendingCommands} (hslot : (d.commandContexts slot).cmdId = cmdId) :
    d.callCount cmdId + d.responseCount cmdId bytes ≤ d'.callCount cmdId := by
  have hgrows := Moves.callCount_le h.moves cmdId
  by_cases hzero : d.responseCount cmdId bytes = 0
  · omega
  · obtain ⟨p, hp, hid⟩ := List.mem_filterMap.mp (List.count_pos_iff.mp (Nat.pos_of_ne_zero hzero))
    cases h with
    | byte b =>
      rw [decodedPackets_singleton, ← SerialPacketsDecoder.reportAt_eq, Option.mem_toList] at hp
      have hone : d.responseCount cmdId [b] = 1 := by
        rw [responseCount, decodedPackets_singleton, ← SerialPacketsDecoder.reportAt_eq, hp,
          Option.toList_some, List.filterMap_cons_some hid]
        exact List.count_singleton_self
      obtain ⟨-, hprocess⟩ := decodeByte_of_reportAt react hp
      have hstill := (d.decodes_decoded b).toStill
      cases p with
      | response cmdId' status data =>
        obtain rfl := Option.some_inj.mp hid
        rw [hprocess, process, hone]
        have hslot' : ((d.decoded b).commandContexts slot).cmdId = cmdId' := by
          rwa [hstill.contexts]
        have hcalled := callCount_processDecodedResponsePacket react
          (fun slot ↦ SlotGrows.accounts (Or.inl hstill.slotStill) (hacc slot)) hslot' hpending
          status
        rw [callCount, handlerCalls, hstill.history] at hcalled
        exact hcalled
      | _ => exact absurd hid (Option.some_ne_none _).symm
    | _ => exact absurd hp List.not_mem_nil

/-- **Every response to an accepted command is handed over**: if the responses with an id that have
been received and that the bytes contain are no more than the commands accepted, they are no more
than the calls after these bytes. -/
theorem Strides.responses_le {bytes : List UInt8} (h : Strides react d bytes d')
    (hacc : ∀ slot, d.SlotAccounts slot) {cmdId : UInt32} {received : ℕ}
    (hcalls : received ≤ d.callCount cmdId)
    (haccepted : received + d.responseCount cmdId bytes ≤ d.acceptCount cmdId) :
    received + d.responseCount cmdId bytes ≤ d'.callCount cmdId := by
  induction h with
  | refl => exact hcalls
  | @tail m _ as bs hrun hstride ih =>
    have hmoves := Strides.moves hrun
    rw [responseCount_append hmoves] at haccepted ⊢
    have hbefore := ih (by omega)
    have hgrows := Moves.callCount_le hstride.moves cmdId
    have haccepts := Moves.acceptCount_le hmoves cmdId
    by_cases hpending : m.callCount cmdId < m.acceptCount cmdId
    · have hacc' : ∀ slot, m.SlotAccounts slot :=
        Runs.Reaches.invariant hmoves (fun hmove ↦ hmove.slotAccounts) hacc
      obtain ⟨hne, slot, hslot⟩ := exists_pending_of_callCount_lt hacc' hpending
      have hcalled := hstride.callCount_add hacc' hne hslot
      omega
    · omega

private theorem numPendingCommands_eq_zero (honce : CallsOnce d)
    (hcalled : ∀ cmdId, d.acceptCount cmdId ≤ d.callCount cmdId) :
    d.numPendingCommands = 0 ∧
      (d.handlerCalls : Multiset (UInt32 × H)) = d.acceptances := by
  have hnone : d.pendingCommands = 0 := by
    have hsub : ((d.acceptances : Multiset (UInt32 × H)).map Prod.fst)
        ≤ (d.handlerCalls : Multiset (UInt32 × H)).map Prod.fst :=
      Multiset.le_iff_count.mpr fun cmdId ↦ by
        rw [Multiset.map_coe, Multiset.map_coe, Multiset.coe_count, Multiset.coe_count]
        exact hcalled cmdId
    have hcard := Multiset.card_le_card hsub
    rw [honce.partition, Multiset.card_map, Multiset.card_map, Multiset.card_add] at hcard
    exact Multiset.card_eq_zero.mp (by omega)
  constructor
  · rw [numPendingCommands, List.countP_eq_zero]
    intro slot _ hslot
    have hne : (d.commandContexts slot).cmdId ≠ 0 := by simpa using hslot
    obtain ⟨handler, hhandler⟩ := Option.ne_none_iff_exists'.mp (honce.handlers slot hne)
    have hpending : ((d.commandContexts slot).cmdId, handler) ∈ d.pendingCommands := by
      rw [pendingCommands, Multiset.mem_sum]
      refine ⟨slot, Finset.mem_univ slot, ?_⟩
      rw [Multiset.mem_coe, Option.mem_toList, CommandContext.pending?, if_neg hne, hhandler]
      rfl
    rw [hnone] at hpending
    exact absurd hpending (Multiset.notMem_zero _)
  · rw [honce.partition, hnone, add_zero]

/-! ## Responses and commands -/

private theorem CallLedger.returnedIds (h : CallLedger d) :
    (d.history Event.returnedResponse?).filterMap Packet.responseId?
      = (d.history Event.commandCall?).filterMap Packet.commandId? := by
  rw [← h.returns, history, history, List.filterMap_filterMap, List.filterMap_filterMap]
  congr 1
  funext e
  cases e <;> rfl

private theorem CallLedger.responseIds_sublist (h : CallLedger d) :
    d.packetsWritten.filterMap Packet.responseId?
      <+ (d.history Event.commandCall?).filterMap Packet.commandId? := by
  have hfilter : (d.packetsWritten.filter Packet.isResponse).filterMap Packet.responseId?
      = d.packetsWritten.filterMap Packet.responseId? := by
    rw [List.filterMap_filter]
    congr 1
    funext p
    cases p <;> rfl
  rw [← hfilter, ← h.returnedIds]
  exact h.responses_sublist.filterMap _

private theorem CallLedger.responseIds_eq (h : CallLedger d)
    (hanswered : ∀ x ∈ d.history Event.transmission?,
      x.packet.isResponse = true → x.outcome.IsComplete) :
    d.packetsWritten.filterMap Packet.responseId?
      = (d.history Event.commandCall?).filterMap Packet.commandId? := by
  have hwritten : d.packetsWritten.filterMap Packet.responseId?
      = (d.history Event.transmission?).filterMap fun x ↦ x.packet.responseId? := by
    rw [packetsWritten, writes, List.filterMap_map, List.filterMap_filter]
    refine List.filterMap_congr fun x hx ↦ ?_
    rcases hp : x.packet with _ | _ | _
    · simp [hp, Packet.responseId?]
    · rw [if_pos (by simpa using hanswered x hx (by rw [hp]; rfl)), Function.comp_apply, hp]
    · simp [hp, Packet.responseId?]
  have hattempts : (d.history Event.transmission?).filterMap (fun x ↦ x.packet.responseId?)
      = (d.history Event.answer?).filterMap Packet.responseId? := by
    rw [history, history, List.filterMap_filterMap, List.filterMap_filterMap]
    congr 1
    funext e
    cases e with
    | transmitted x =>
      rcases hp : x.packet with _ | _ | _ <;>
        simp [Event.transmission?, Event.answer?, hp, Packet.isResponse, Packet.responseId?]
    | _ => rfl
  rw [hwritten, hattempts, h.answers, h.returnedIds]

end Device

namespace Link

variable {react : Side → ℕ → Reaction cfg H} {l l' : Link cfg H}

/-! ## The strides of a side -/

/-- The bytes that a side has read. -/
def taken (l : Link cfg H) (side : Side) : List UInt8 := (l.dev side.peer).sent.take (l.read side)

/-- **What a step of the line is**: an operation of one side, on bytes in flight to it. -/
theorem step_cases {op : LinkOp cfg H} (hignore : ∀ side, (l.dev side).ignoreRxForTesting = false)
    (h : l.step react op = some l') :
    ∃ (side : Side) (devOp : Device.Op cfg H) (d : Device cfg H),
      Device.step (react side) (l.dev side) devOp = some d ∧
        devOp.bytes (l.dev side).ignoreRxForTesting (l.dev side).begun <+: l.inFlight side ∧
        l' = l.advance side d
          (devOp.bytes (l.dev side).ignoreRxForTesting (l.dev side).begun).length := by
  cases op with
  | begin side => exact ⟨side, .begin, _, rfl, List.nil_prefix, (Option.some_inj.mp h).symm⟩
  | sendCommand side endpoint data responseHandler timeoutMillis tx =>
    exact ⟨side, .sendCommand endpoint data responseHandler timeoutMillis tx, _, rfl,
      List.nil_prefix, (Option.some_inj.mp h).symm⟩
  | sendMessage side endpoint data tx =>
    exact ⟨side, .sendMessage endpoint data tx, _, rfl, List.nil_prefix,
      (Option.some_inj.mp h).symm⟩
  | delay side millis =>
    exact ⟨side, .delay millis, _, rfl, List.nil_prefix, (Option.some_inj.mp h).symm⟩
  | loop side available waits resetMillis sweepMillis =>
    rw [step] at h
    split at h
    · rename_i havailable
      obtain ⟨d, hloop, rfl⟩ := Option.map_eq_some_iff.mp h
      set bytes := (l.inFlight side).take (available % 2 ^ 16)
      refine ⟨side, .loop ⟨available, readAnswers bytes waits, resetMillis, sweepMillis⟩, d, hloop,
        ?_⟩
      rw [Device.Op.bytes, hignore side, Bool.or_false]
      cases hbegun : (l.dev side).begun with
      | false => exact ⟨List.nil_prefix, rfl⟩
      | true =>
        -- the answers are cut from the bytes in flight, so `loop_rx` reads these and no others
        have hread : Device.bytesRead (((available : ℤ) % 2 ^ 16).toNat)
            (readAnswers bytes waits) = bytes := by
          rw [Device.loop_of_begun (react side) hbegun, Option.map_eq_some_iff] at hloop
          obtain ⟨d₁, hrx, -⟩ := hloop
          dsimp only at hrx
          rw [length_take_inFlight havailable] at hrx ⊢
          exact Device.bytesRead_readAnswers (hignore side) hrx
        dsimp only
        rw [hread]
        exact ⟨List.take_prefix _ _, rfl⟩
    · exact absurd h (Option.some_ne_none _).symm

/-- A side has made its strides on what it has read of the bytes sent by its peer. -/
structure Tracks (react : Side → ℕ → Reaction cfg H) (l : Link cfg H) (side : Side) : Prop where
  strides : ∃ d₀, Device.IsFresh d₀ ∧
    Device.Strides (react side) d₀ (l.taken side) (l.dev side)
  read_le : l.read side ≤ (l.dev side.peer).sent.length

theorem Tracks.follows {side : Side} (h : Tracks react l side) : l.Follows side := by
  obtain ⟨⟨d₀, hfresh, hstrides⟩, hle⟩ := h
  exact ⟨⟨d₀, hfresh, Device.Strides.moves hstrides⟩, hle⟩

private theorem taken_advance {side : Side} {d : Device cfg H} {bytes : List UInt8}
    (hle : ∀ side, l.read side ≤ (l.dev side.peer).sent.length)
    (hbytes : bytes <+: l.inFlight side) (hsent : (l.dev side).sent <+: d.sent) :
    (l.advance side d bytes.length).taken side = l.taken side ++ bytes ∧
      (l.advance side d bytes.length).taken side.peer = l.taken side.peer ∧
      ∀ other, (l.advance side d bytes.length).read other
        ≤ ((l.advance side d bytes.length).dev other.peer).sent.length := by
  have hself : (l.advance side d bytes.length).dev side = d := Function.update_self _ _ _
  have hpeer : (l.advance side d bytes.length).dev side.peer = l.dev side.peer :=
    Function.update_of_ne side.peer_ne _ _
  have hread : (l.advance side d bytes.length).read side = l.read side + bytes.length :=
    Function.update_self _ _ _
  have hread' : (l.advance side d bytes.length).read side.peer = l.read side.peer :=
    Function.update_of_ne side.peer_ne _ _
  have hle' := hle side.peer
  rw [Side.peer_peer] at hle'
  refine ⟨?_, ?_, fun other ↦ ?_⟩
  · rw [taken, taken, hpeer, hread, List.take_add]
    exact congrArg _ (List.prefix_iff_eq_take.mp hbytes).symm
  · obtain ⟨more, hmore⟩ := hsent
    rw [taken, taken, Side.peer_peer, hself, hread', ← hmore, List.take_append_of_le_length hle']
  · by_cases hother : other = side
    · have hlen := hbytes.length_le
      have hside := hle side
      rw [inFlight, List.length_drop] at hlen
      rw [hother, hpeer, hread]
      omega
    · obtain rfl := Side.eq_peer_of_ne hother
      rw [Side.peer_peer, hself, hread']
      exact hle'.trans hsent.length_le

theorem Tracks.advance (h : ∀ side, Tracks react l side) {side : Side} {d : Device cfg H}
    {bytes : List UInt8} (hbytes : bytes <+: l.inFlight side)
    (hstrides : Device.Strides (react side) (l.dev side) bytes d) (other : Side) :
    Tracks react (l.advance side d bytes.length) other := by
  obtain ⟨hside, hpeer, hle⟩ := taken_advance (fun side ↦ (h side).read_le) hbytes
    (Device.Moves.sent_prefix (Device.Strides.moves hstrides))
  refine ⟨?_, hle other⟩
  by_cases hother : other = side
  · subst hother
    obtain ⟨d₀, hfresh, hpast⟩ := (h other).strides
    have hself : (l.advance other d bytes.length).dev other = d := Function.update_self _ _ _
    exact ⟨d₀, hfresh, by rw [hself, hside]; exact hpast.trans hstrides⟩
  · obtain rfl := Side.eq_peer_of_ne hother
    obtain ⟨d₀, hfresh, hpast⟩ := (h side.peer).strides
    have hself : (l.advance side d bytes.length).dev side.peer = l.dev side.peer :=
      Function.update_of_ne side.peer_ne _ _
    exact ⟨d₀, hfresh, by rw [hself, hpeer]; exact hpast⟩

theorem Tracks.ignoring {side : Side} (h : Tracks react l side) :
    (l.dev side).ignoreRxForTesting = false := h.follows.ignoring

/-- **One step** of either side, taken apart for an invariant of the line. -/
theorem exists_advance_of_step {op : LinkOp cfg H} (h : ∀ side, Tracks react l side)
    (hstep : l.step react op = some l') :
    ∃ side d bytes, bytes <+: l.inFlight side ∧
      Device.Strides (react side) (l.dev side) bytes d ∧ l' = l.advance side d bytes.length := by
  obtain ⟨side, devOp, d, hdev, hbytes, rfl⟩ := step_cases (fun side ↦ (h side).ignoring) hstep
  exact ⟨side, d, _, hbytes, Device.strides_step hdev, rfl⟩

theorem IsFresh.tracks (h : IsFresh l) (react : Side → ℕ → Reaction cfg H) (side : Side) :
    Tracks react l side := by
  refine ⟨⟨l.dev side, h.dev side, ?_⟩, ?_⟩
  · rw [taken, h.read, List.take_zero]
    exact .refl _
  · rw [h.read]
    exact Nat.zero_le _

theorem tracks_of_run {ops : List (LinkOp cfg H)} {l₀ : Link cfg H} (hfresh : l₀.IsFresh)
    (hrun : Runs.run (step react) l₀ ops = some l) (side : Side) : Tracks react l side := by
  refine Runs.invariant_of_run (P := fun l ↦ ∀ side, Tracks react l side) (fun op _ a b ha hab ↦ ?_)
    (hfresh.tracks react) hrun side
  obtain ⟨side, d, bytes, hbytes, hstrides, rfl⟩ := exists_advance_of_step ha hab
  exact Tracks.advance ha hbytes hstrides

/-! ## In order and once -/

/-- The first packet that a side has written has a flag of its own in front. -/
def Opens (l : Link cfg H) (side : Side) : Prop :=
  ∀ x ∈ (l.dev side).writes.head?, x.preFlag = true

instance (side : Side) : Decidable (l.Opens side) :=
  inferInstanceAs (Decidable (∀ x ∈ (l.dev side).writes.head?, x.preFlag = true))

private theorem decodedPackets_sent {side : Side} (h : ∀ side, Tracks react l side)
    (hshort : (l.dev side).NeverShort) (hopens : l.Opens side) :
    decodedPackets cfg .dropped (l.dev side).sent = (l.dev side).packetsWritten := by
  obtain ⟨hledger, -, -⟩ := Follows.ledgers (fun side ↦ (h side).follows) side
  have hwires : (l.dev side).sent
      = wires ((l.dev side).writes.map fun x ↦ (x.preFlag, x.packet)) := by
    rw [hledger.sent_eq hshort, wires, List.flatMap_map]
    rfl
  rw [hwires, decodedPackets_wires (Or.inr ⟨rfl, fun q hq ↦ ?_⟩) fun q hq ↦ ?_, List.map_map]
  · rfl
  · rw [List.head?_map] at hq
    obtain ⟨x, hx, rfl⟩ := Option.mem_map.mp hq
    exact hopens x hx
  · obtain ⟨x, hx, rfl⟩ := List.mem_map.mp hq
    exact hledger.data_length_le hx

private theorem isPrefix_decodedPackets_taken {side : Side} (h : ∀ side, Tracks react l side)
    (hshort : (l.dev side.peer).NeverShort) (hopens : l.Opens side.peer) :
    decodedPackets cfg .dropped (l.taken side) <+: (l.dev side.peer).packetsWritten := by
  rw [← decodedPackets_sent h hshort hopens]
  conv_rhs => rw [← List.take_append_drop (l.read side) (l.dev side.peer).sent,
    decodedPackets_append]
  exact List.prefix_append _ _

private theorem decodedPackets_taken_of_drained {side : Side} (h : ∀ side, Tracks react l side)
    (hshort : (l.dev side.peer).NeverShort) (hopens : l.Opens side.peer)
    (hdrained : l.inFlight side = []) :
    decodedPackets cfg .dropped (l.taken side) = (l.dev side.peer).packetsWritten := by
  rw [← decodedPackets_sent h hshort hopens, taken,
    List.take_of_length_le (List.drop_eq_nil_iff.mp hdrained)]

theorem Tracks.requests {side : Side} (h : Tracks react l side) :
    (l.dev side).history Event.request?
      = (decodedPackets cfg .dropped (l.taken side)).filter (l.dev side).handles := by
  obtain ⟨d₀, hfresh, hstrides⟩ := h.strides
  rw [Device.Strides.requests hstrides, hfresh.waiting, Device.history, hfresh.trace,
    Device.Moves.handles (Device.Strides.moves hstrides)]
  rfl

/-- **In order and once.** In every run of two clients on a line, from their construction on, in
which a side's stream accepts every packet completely or not at all and its first packet has a flag
in front, what the other side's handlers have been called for is a prefix of the packets written
that they are installed for, and all of these once the channel is drained. -/
theorem requests_prefix_of_run (react : Side → ℕ → Reaction cfg H) (ops : List (LinkOp cfg H))
    {l₀ l : Link cfg H} (hfresh : l₀.IsFresh) (hrun : Runs.run (step react) l₀ ops = some l)
    (side : Side) (hshort : (l.dev side.peer).NeverShort) (hopens : l.Opens side.peer) :
    (l.dev side).history Event.request?
        <+: (l.dev side.peer).packetsWritten.filter (l.dev side).handles ∧
      (l.inFlight side = [] → (l.dev side).history Event.request?
        = (l.dev side.peer).packetsWritten.filter (l.dev side).handles) := by
  have h := tracks_of_run hfresh hrun
  rw [(h side).requests]
  refine ⟨(isPrefix_decodedPackets_taken h hshort hopens).filter _, fun hdrained ↦ ?_⟩
  rw [decodedPackets_taken_of_drained h hshort hopens hdrained]

/-- A command that has been read completely. -/
theorem requests_prefix_of_run_exchange :
    ∃ l, Runs.run (step answering) freshPair exchange = some l ∧
      (l.dev .right).history Event.request? = [.command 1 0x20 []] := by
  have hrun := (Option.some_get isSome_run_exchange).symm
  refine ⟨_, hrun, ?_⟩
  have hall := (requests_prefix_of_run answering exchange
    ⟨fun _ ↦ Device.isFresh_create _ _ _, fun _ ↦ rfl⟩ hrun .right (by decide +kernel)
    (by decide +kernel)).2 (by decide +kernel)
  rw [hall]
  decide +kernel

/-! ## Settled commands -/

/-- The responses that the peer of a side has written have the ids of commands that the side has
accepted, with multiplicity. -/
private theorem responseIds_sublist_acceptances {side : Side} (h : ∀ side, Tracks react l side)
    (hshort : (l.dev side).NeverShort) :
    (l.dev side.peer).packetsWritten.filterMap Packet.responseId?
      <+ (l.dev side).acceptances.map Prod.fst := by
  have hfollows (side : Side) : l.Follows side := (h side).follows
  obtain ⟨-, hcalls, -⟩ := Follows.ledgers hfollows side.peer
  obtain ⟨d₀, hfresh, hstrides⟩ := (h side).strides
  have hincoming : ((l.dev side.peer).history Event.commandCall?).filterMap Packet.commandId?
      = ((l.dev side.peer).history Event.incoming?).filterMap Packet.commandId? := by
    rw [Device.history, Device.history, List.filterMap_filterMap, List.filterMap_filterMap]
    congr 1
    funext e
    rcases e with _ | _ | _ | _ | ⟨_, _, _, _, _, _ | _⟩ | _ | _ | _ | _ <;> rfl
  have hsub : (l.dev side.peer).history Event.incoming?
      <+ (l.dev side.peer.peer).packetsWritten :=
    Follows.incoming_sublist hfollows (by rw [Side.peer_peer]; exact hshort)
  rw [Side.peer_peer] at hsub
  rw [← Device.commandIds_packetsWritten hfresh (Device.Strides.moves hstrides)]
  exact hcalls.responseIds_sublist.trans (hincoming ▸ hsub.filterMap _)

private theorem decodedPackets_sent_sublist {side : Side} (h : ∀ side, Tracks react l side)
    (hshort : (l.dev side).NeverShort) :
    decodedPackets cfg .dropped (l.dev side).sent <+ (l.dev side).packetsWritten := by
  obtain ⟨hledger, -, -⟩ := Follows.ledgers (fun side ↦ (h side).follows) side
  have hdata : ∀ p ∈ (l.dev side).packetsWritten, p.data.length ≤ cfg.maxPacketDataLen := by
    intro p hp
    obtain ⟨x, hx, rfl⟩ := List.mem_map.mp hp
    exact hledger.data_length_le hx
  let stream := (l.dev side).writes.map fun x ↦ (x.preFlag, x.packet.body)
  have hall : (Receiver.frames hdlc cfg.maxPacketLen Receiver.dropped
      (stream.flatMap fun q ↦ hdlc.frame q.1 q.2)).filter (· ≠ []) <+ stream.map Prod.snd := by
    refine filter_frames_stream_sublist (Or.inl rfl) stream fun q hq ↦ ?_
    obtain ⟨x, hx, rfl⟩ := List.mem_map.mp hq
    exact Packet.length_body_le (hledger.data_length_le hx)
  have hpackets := hall.filterMap (packetOf cfg)
  have hbodies : stream.map Prod.snd = (l.dev side).packetsWritten.map Packet.body := by
    rw [List.map_map, Device.packetsWritten, List.map_map]
    rfl
  rw [filterMap_filter_ne_nil, hbodies, packetOf_comp_body hdata, List.flatMap_map,
    ← hledger.sent_eq hshort] at hpackets
  exact hpackets

/-- The ids of the responses that a side has received. -/
def responseIds (l : Link cfg H) (side : Side) : List UInt32 :=
  (decodedPackets cfg .dropped (l.taken side)).filterMap Packet.responseId?

/-- Every response that a side has received has had a handler called for its id. -/
def Settles (l : Link cfg H) (side : Side) : Prop :=
  ∀ cmdId, (l.responseIds side).count cmdId ≤ (l.dev side).callCount cmdId

/-- **One step**: the responses among the bytes that a side reads are to commands that it has
accepted before. -/
private theorem Settles.advance {moved : Side} {d : Device cfg H} {bytes : List UInt8}
    (h : ∀ side, Tracks react l side) (hbytes : bytes <+: l.inFlight moved)
    (hstrides : Device.Strides (react moved) (l.dev moved) bytes d)
    (hshort : ∀ side, (l.dev side).NeverShort) (hsettles : ∀ side, l.Settles side) (side : Side) :
    (l.advance moved d bytes.length).Settles side := by
  obtain ⟨htaken, htaken', -⟩ := taken_advance (fun side ↦ (h side).read_le) hbytes
    (Device.Moves.sent_prefix (Device.Strides.moves hstrides))
  intro cmdId
  by_cases hside : side = moved
  · subst hside
    have hself : (l.advance side d bytes.length).dev side = d := Function.update_self _ _ _
    obtain ⟨d₀, hfresh, hpast⟩ := (h side).strides
    have hmoves := Device.Strides.moves hpast
    have hreceiver := (Device.Moves.frame hmoves).2
    rw [hfresh.waiting] at hreceiver
    have hsplit : decodedPackets cfg .dropped (l.taken side ++ bytes)
        = decodedPackets cfg .dropped (l.taken side)
          ++ decodedPackets cfg (l.dev side).packetDecoder.receiver bytes := by
      rw [decodedPackets_append, hreceiver]
    have hcount : ((l.advance side d bytes.length).responseIds side).count cmdId
        = (l.responseIds side).count cmdId + (l.dev side).responseCount cmdId bytes := by
      rw [responseIds, htaken, hsplit, List.filterMap_append, List.count_append]
      rfl
    -- the bytes are already on the line
    have hsent : l.taken side ++ bytes <+: (l.dev side.peer).sent := by
      obtain ⟨more, hmore⟩ := hbytes
      refine ⟨more, ?_⟩
      rw [List.append_assoc, hmore]
      exact List.take_append_drop _ _
    have haccepted : (l.responseIds side).count cmdId + (l.dev side).responseCount cmdId bytes
        ≤ (l.dev side).acceptCount cmdId := by
      obtain ⟨more, hmore⟩ := hsent
      have hwritten := decodedPackets_sent_sublist h (hshort side.peer)
      rw [← hmore, decodedPackets_append] at hwritten
      have hids := ((List.sublist_append_left _ _).trans hwritten).filterMap Packet.responseId?
      have hle := (hids.trans (responseIds_sublist_acceptances h (hshort side))).count_le cmdId
      rwa [hsplit, List.filterMap_append, List.count_append] at hle
    rw [hself, hcount]
    exact Device.Strides.responses_le hstrides (Device.Moves.slotAccounts hmoves hfresh)
      (hsettles side cmdId) haccepted
  · obtain rfl := Side.eq_peer_of_ne hside
    have hself : (l.advance moved d bytes.length).dev moved.peer = l.dev moved.peer :=
      Function.update_of_ne moved.peer_ne _ _
    rw [responseIds, htaken', hself]
    exact hsettles moved.peer cmdId

private theorem IsFresh.settles (h : IsFresh l) (side : Side) : l.Settles side := by
  intro cmdId
  rw [responseIds, taken, h.read, List.take_zero]
  exact Nat.zero_le _

private theorem neverShort_of_advance {moved : Side} {d : Device cfg H} {bytes : List UInt8}
    (hstrides : Device.Strides (react moved) (l.dev moved) bytes d)
    (h : ∀ side, ((l.advance moved d bytes.length).dev side).NeverShort) (side : Side) :
    (l.dev side).NeverShort := by
  have hside := h side
  by_cases hmoved : side = moved
  · subst hmoved
    rw [show (l.advance side d bytes.length).dev side = d from Function.update_self _ _ _] at hside
    have hattempts := Device.Moves.history_prefix Event.transmission?
      (Device.Strides.moves hstrides)
    exact fun x hx ↦ hside x (hattempts.subset hx)
  · rwa [show (l.advance moved d bytes.length).dev side = l.dev side from
      Function.update_of_ne hmoved _ _] at hside

theorem settles_of_run {ops : List (LinkOp cfg H)} {l₀ : Link cfg H} (hfresh : l₀.IsFresh)
    (hrun : Runs.run (step react) l₀ ops = some l) (hshort : ∀ side, (l.dev side).NeverShort)
    (side : Side) : l.Settles side := by
  have hinvariant : (∀ side, Tracks react l side) ∧
      ((∀ side, (l.dev side).NeverShort) → ∀ side, l.Settles side) := by
    refine Runs.invariant_of_run (P := fun l ↦ (∀ side, Tracks react l side) ∧
      ((∀ side, (l.dev side).NeverShort) → ∀ side, l.Settles side)) (fun op _ a b ha hab ↦ ?_)
      ⟨hfresh.tracks react, fun _ ↦ hfresh.settles⟩ hrun
    obtain ⟨htracks, hsettles⟩ := ha
    obtain ⟨moved, d, bytes, hbytes, hstrides, rfl⟩ := exists_advance_of_step htracks hab
    refine ⟨Tracks.advance htracks hbytes hstrides, fun hshort ↦ ?_⟩
    have hshort' := neverShort_of_advance hstrides hshort
    exact Settles.advance htracks hbytes hstrides hshort' (hsettles hshort')
  exact hinvariant.2 hshort side

private theorem responseIds_eq_acceptances {side : Side} (h : ∀ side, Tracks react l side)
    (hshort : (l.dev side).NeverShort) (hopens : l.Opens side)
    (hdrained : l.inFlight side.peer = [])
    (hhandler : (l.dev side.peer).optionalCommandHandler ≠ none)
    (hanswered : ∀ x ∈ (l.dev side.peer).history Event.transmission?,
      x.packet.isResponse = true → x.outcome.IsComplete) :
    (l.dev side.peer).packetsWritten.filterMap Packet.responseId?
      = (l.dev side).acceptances.map Prod.fst := by
  obtain ⟨-, hcalls, -⟩ := Follows.ledgers (fun side ↦ (h side).follows) side.peer
  obtain ⟨d₀, hfresh, hstrides⟩ := (h side).strides
  have hreceived : decodedPackets cfg .dropped (l.taken side.peer)
      = (l.dev side.peer.peer).packetsWritten :=
    decodedPackets_taken_of_drained h (by rw [Side.peer_peer]; exact hshort)
      (by rw [Side.peer_peer]; exact hopens) hdrained
  have hrequests : ((l.dev side.peer).history Event.commandCall?).filterMap Packet.commandId?
      = ((l.dev side.peer).history Event.request?).filterMap Packet.commandId? := by
    rw [Device.history, Device.history, List.filterMap_filterMap, List.filterMap_filterMap]
    congr 1
    funext e
    cases e <;> rfl
  have hhandled (p : Packet (List UInt8)) :
      (if (l.dev side.peer).handles p = true then p.commandId? else none) = p.commandId? := by
    cases p with
    | command cmdId endpoint data => exact if_pos (Option.isSome_iff_ne_none.mpr hhandler)
    | _ => exact ite_self _
  rw [hcalls.responseIds_eq hanswered, hrequests, (h side.peer).requests, hreceived, Side.peer_peer,
    List.filterMap_filter, funext hhandled,
    Device.commandIds_packetsWritten hfresh (Device.Strides.moves hstrides)]

/-- What is left of a command when everything is over: its handler has been called, once. -/
structure Settled (l : Link cfg H) (side : Side) : Prop where
  numPending : (l.dev side).numPendingCommands = 0
  calls : ((l.dev side).handlerCalls : Multiset (UInt32 × H)) = (l.dev side).acceptances
  /-- The call was for a timeout, or with what the peer's handler has returned for the command. -/
  outcomes : ∀ slot handler cmdId status data origin,
    .responseCall slot handler cmdId status data origin ∈ (l.dev side).trace →
      origin = .cleanup ∧ status = statusTimeout ∧ data = [] ∨
        origin = .response ∧ ∃ endpoint payload,
          Packet.command cmdId endpoint payload ∈ (l.dev side).packetsWritten ∧
            .commandReturn cmdId endpoint payload status data ∈ (l.dev side.peer).trace

/-- **Every command is settled.** Take any run of two clients on a line, from their construction on,
in which the streams accept every packet completely or not at all and the first packet of each side
has a flag in front. When both channels are drained, the peer has a command handler and its answers
have all been written, then no command of a side is pending: the handlers called are those of the
commands accepted, each with its own id and once, for a timeout or with the status and data that the
peer's command handler has returned for it. -/
theorem settled_of_run (react : Side → ℕ → Reaction cfg H) (ops : List (LinkOp cfg H))
    {l₀ l : Link cfg H} (hfresh : l₀.IsFresh) (hrun : Runs.run (step react) l₀ ops = some l)
    (side : Side) (hshort : ∀ side, (l.dev side).NeverShort) (hopens : ∀ side, l.Opens side)
    (hdrained : ∀ side, l.inFlight side = [])
    (hhandler : (l.dev side.peer).optionalCommandHandler ≠ none)
    (hanswered : ∀ x ∈ (l.dev side.peer).history Event.transmission?,
      x.packet.isResponse = true → x.outcome.IsComplete) : l.Settled side := by
  have h := tracks_of_run hfresh hrun
  have hfollows (side : Side) : l.Follows side := (h side).follows
  obtain ⟨hledger, -, honce⟩ := Follows.ledgers hfollows side
  have hcalled (cmdId : UInt32) :
      (l.dev side).acceptCount cmdId ≤ (l.dev side).callCount cmdId := by
    have hsettles := settles_of_run hfresh hrun hshort side cmdId
    rwa [responseIds, decodedPackets_taken_of_drained h (hshort side.peer) (hopens side.peer)
      (hdrained side), responseIds_eq_acceptances h (hshort side) (hopens side)
        (hdrained side.peer) hhandler hanswered] at hsettles
  obtain ⟨hnone, hcalls⟩ := Device.numPendingCommands_eq_zero honce hcalled
  refine ⟨hnone, hcalls, fun slot handler cmdId status data origin hcall ↦ ?_⟩
  cases origin with
  | cleanup => exact Or.inl ⟨rfl, hledger.sound _ hcall⟩
  | response => exact Or.inr ⟨rfl, Follows.exists_return hfollows hshort hcall⟩

/-- A command and its response, both read. -/
theorem settled_of_run_exchange :
    ∃ l, Runs.run (step answering) freshPair exchange = some l ∧
      (l.dev .left).acceptances = [(1, ())] ∧ l.Settled .left := by
  have hrun := (Option.some_get isSome_run_exchange).symm
  refine ⟨_, hrun, by decide +kernel, settled_of_run answering exchange
    ⟨fun _ ↦ Device.isFresh_create _ _ _, fun _ ↦ rfl⟩ hrun .left ?_ ?_ ?_
    (by decide +kernel) (by decide +kernel)⟩
  · rintro (_ | _) <;> decide +kernel
  · rintro (_ | _) <;> decide +kernel
  · rintro (_ | _) <;> decide +kernel

end Link

end SerialPackets

import SerialPackets.Client.Ledger
import SerialPackets.Model.Link

/-!
# Delivery between two clients

Whatever two clients on a line do, and in whatever order, each of them has made its moves on a
prefix of what the other has sent. What it handles are then packets that the other has written, in
order and each at most once. Since each side numbers its commands and answers each call of its
command handler once, a response that reaches a response handler is the one that the other side's
command handler has filled in for that very command.
-/

namespace SerialPackets

open Framing
open scoped List

variable {cfg : Config} {H : Type*}

namespace Side

@[simp] theorem peer_peer (side : Side) : side.peer.peer = side := by
  cases side <;> rfl

theorem peer_ne (side : Side) : side.peer ≠ side := by
  cases side <;> exact Side.noConfusion

theorem eq_peer_of_ne {side other : Side} (h : other ≠ side) : other = side.peer := by
  cases side <;> cases other <;> first | rfl | exact absurd rfl h

end Side

section Portions

variable {bytes : List UInt8} {n : ℕ} (hlen : bytes.length = n + 1)

include hlen

private theorem take_take_rxTransferBufferLen :
    (bytes.take rxTransferBufferLen).take (min rxTransferBufferLen (n + 1))
      = bytes.take rxTransferBufferLen := by
  rw [List.take_take, ← hlen, min_right_comm, min_self, List.take_eq_take_iff]
  exact (min_assoc _ _ _).trans (congrArg _ (min_self _))

private theorem length_drop_rxTransferBufferLen :
    n + 1 - (bytes.take rxTransferBufferLen).length = (bytes.drop rxTransferBufferLen).length := by
  rw [List.length_take, List.length_drop, hlen]
  omega

end Portions

theorem Device.bytesRead_readAnswers {react : ℕ → Reaction cfg H} {d d' : Device cfg H}
    {bytes : List UInt8} {waits : List ℕ} (hignore : d.ignoreRxForTesting = false)
    (h : loopRx? react d bytes.length (readAnswers bytes waits) = some d') :
    bytesRead bytes.length (readAnswers bytes waits) = bytes := by
  induction waits generalizing bytes d with
  | nil =>
    cases bytes with
    | nil => rfl
    | cons b bytes => exact absurd h (Option.some_ne_none _).symm
  | cons wait waits ih =>
    cases hlen : bytes.length with
    | zero => rw [bytesRead, List.length_eq_zero_iff.mp hlen]
    | succ n =>
      rw [hlen, readAnswers, loopRx?] at h
      rw [readAnswers, bytesRead]
      dsimp only at h ⊢
      rw [take_take_rxTransferBufferLen hlen, length_drop_rxTransferBufferLen hlen] at h ⊢
      have hquiet := d.quiet_afterRead wait (min rxTransferBufferLen (n + 1))
        (bytes.take rxTransferBufferLen).length
      generalize d.afterRead wait (min rxTransferBufferLen (n + 1))
        (bytes.take rxTransferBufferLen).length = d₀ at h hquiet
      rw [if_neg (by rw [hquiet.ignoring, hignore]; exact Bool.false_ne_true)] at h
      have hfold :=
        (Moves.frame (moves_foldl_decodeByte react (bytes.take rxTransferBufferLen) d₀)).1
      rw [hquiet.ignoring, hignore] at hfold
      rw [ih hfold h, List.take_append_drop]

private theorem Device.isSome_loopRx?_readAnswers (react : ℕ → Reaction cfg H) {d : Device cfg H}
    {bytes : List UInt8} {waits : List ℕ}
    (hwaits : bytes.length ≤ rxTransferBufferLen * waits.length) :
    (loopRx? react d bytes.length (readAnswers bytes waits)).isSome = true := by
  induction waits generalizing bytes d with
  | nil =>
    obtain rfl := List.length_eq_zero_iff.mp (Nat.le_zero.mp hwaits)
    rfl
  | cons wait waits ih =>
    cases hlen : bytes.length with
    | zero => rw [loopRx?]; rfl
    | succ n =>
      rw [readAnswers, loopRx?, take_take_rxTransferBufferLen hlen,
        length_drop_rxTransferBufferLen hlen]
      dsimp only
      split
      · rfl
      · apply ih
        rw [List.length_drop]
        rw [List.length_cons, Nat.mul_succ] at hwaits
        exact Nat.sub_le_iff_le_add.mpr hwaits

namespace Link

variable {l l' : Link cfg H}

theorem length_take_inFlight {side : Side} {available : ℕ}
    (havailable : available ≤ (l.inFlight side).length) :
    ((available : ℤ) % 2 ^ 16).toNat = ((l.inFlight side).take (available % 2 ^ 16)).length := by
  have hle := (Nat.mod_le available (2 ^ 16)).trans havailable
  rw [List.length_take, min_eq_left hle]
  omega

theorem isSome_step_loop (react : Side → ℕ → Reaction cfg H) (l : Link cfg H) {side : Side}
    {available : ℕ} {waits : List ℕ} (resetMillis sweepMillis : ℕ)
    (havailable : available ≤ (l.inFlight side).length)
    (hwaits : available ≤ rxTransferBufferLen * waits.length) :
    (l.step react (.loop side available waits resetMillis sweepMillis)).isSome = true := by
  rw [step, if_pos havailable, Option.isSome_map, Device.loop]
  split
  · rfl
  · rw [Option.isSome_map, length_take_inFlight havailable]
    apply Device.isSome_loopRx?_readAnswers
    rw [← length_take_inFlight havailable]
    have hle := (Nat.mod_le available (2 ^ 16)).trans hwaits
    omega

/-! ## The invariant -/

/-- A side has made its moves on what it has read of the bytes sent by its peer. -/
structure Follows (l : Link cfg H) (side : Side) : Prop where
  moves : ∃ d₀, Device.IsFresh d₀ ∧
    Device.Moves d₀ ((l.dev side.peer).sent.take (l.read side)) (l.dev side)
  read_le : l.read side ≤ (l.dev side.peer).sent.length

theorem Follows.ignoring {side : Side} (h : l.Follows side) :
    (l.dev side).ignoreRxForTesting = false := by
  obtain ⟨d₀, hfresh, hmoves⟩ := h.moves
  rw [(Device.Moves.frame hmoves).1, hfresh.notIgnoring]

private theorem Follows.advance (h : ∀ side, l.Follows side) {side : Side} {d : Device cfg H}
    {bytes : List UInt8} (hbytes : bytes <+: l.inFlight side)
    (hmoves : Device.Moves (l.dev side) bytes d) (other : Side) :
    (l.advance side d bytes.length).Follows other := by
  have hsent := hmoves.sent_prefix
  by_cases hother : other = side
  · subst hother
    obtain ⟨⟨d₀, hfresh, hpast⟩, hle⟩ := h other
    have hpeer : (l.advance other d bytes.length).dev other.peer = l.dev other.peer :=
      Function.update_of_ne other.peer_ne _ _
    have hself : (l.advance other d bytes.length).dev other = d := Function.update_self _ _ _
    have hread : (l.advance other d bytes.length).read other = l.read other + bytes.length :=
      Function.update_self _ _ _
    -- the side that steps reads on in what its peer has sent
    have htake : (l.dev other.peer).sent.take (l.read other + bytes.length)
        = (l.dev other.peer).sent.take (l.read other) ++ bytes := by
      rw [List.take_add]
      exact congrArg _ (List.prefix_iff_eq_take.mp hbytes).symm
    refine ⟨⟨d₀, hfresh, ?_⟩, ?_⟩
    · rw [hpeer, hself, hread, htake]
      exact hpast.trans hmoves
    · rw [hpeer, hread]
      have hlen := hbytes.length_le
      rw [inFlight, List.length_drop] at hlen
      omega
  · obtain rfl := Side.eq_peer_of_ne hother
    -- the peer has read as much as before of a list of sent bytes that only grew
    obtain ⟨⟨d₀, hfresh, hpast⟩, hle⟩ := h side.peer
    rw [Side.peer_peer] at hpast hle
    have hpeer : (l.advance side d bytes.length).dev side.peer = l.dev side.peer :=
      Function.update_of_ne side.peer_ne _ _
    have hself : (l.advance side d bytes.length).dev side = d := Function.update_self _ _ _
    have hread : (l.advance side d bytes.length).read side.peer = l.read side.peer :=
      Function.update_of_ne side.peer_ne _ _
    refine ⟨⟨d₀, hfresh, ?_⟩, ?_⟩
    · rw [Side.peer_peer, hpeer, hself, hread]
      obtain ⟨more, hmore⟩ := hsent
      rw [← hmore, List.take_append_of_le_length hle]
      exact hpast
    · rw [Side.peer_peer, hself, hread]
      exact hle.trans hsent.length_le

private theorem Follows.advance_silent (h : ∀ side, l.Follows side) {side : Side} {d : Device cfg H}
    (hmoves : Device.Moves (l.dev side) [] d) (other : Side) :
    (l.advance side d 0).Follows other := advance h List.nil_prefix hmoves other

/-- **One step** of either side preserves the invariant. -/
theorem follows_step {react : Side → ℕ → Reaction cfg H} {op : LinkOp cfg H}
    (hstep : l.step react op = some l') (h : ∀ side, l.Follows side) : ∀ side, l'.Follows side := by
  cases op with
  | begin side =>
    rw [← Option.some_inj.mp hstep]
    exact Follows.advance_silent h (Device.moves_begin _)
  | sendCommand side endpoint data responseHandler timeoutMillis tx =>
    rw [← Option.some_inj.mp hstep]
    exact Follows.advance_silent h (Device.sends_sendCommand _ _ _ _ _ _).moves
  | sendMessage side endpoint data tx =>
    rw [← Option.some_inj.mp hstep]
    exact Follows.advance_silent h (Device.sends_sendMessage _ _ _ _).moves
  | delay side millis =>
    rw [← Option.some_inj.mp hstep]
    exact Follows.advance_silent h (Device.quiet_wait _ _).moves
  | loop side available waits resetMillis sweepMillis =>
    rw [step] at hstep
    split at hstep
    · rename_i havailable
      obtain ⟨d, hloop, rfl⟩ := Option.map_eq_some_iff.mp hstep
      cases hbegun : (l.dev side).begun with
      | false =>
        rw [Device.loop, if_pos hbegun, Option.some_inj] at hloop
        rw [← hloop, if_neg Bool.false_ne_true]
        exact Follows.advance_silent h (.refl _)
      | true =>
        rw [if_pos rfl]
        refine Follows.advance h (List.take_prefix _ _) ?_
        have hmoves := Device.moves_loop (react side) hbegun (h side).ignoring hloop
        rw [Device.loop_of_begun (react side) hbegun, Option.map_eq_some_iff] at hloop
        obtain ⟨d₁, hrx, -⟩ := hloop
        dsimp only at hmoves hrx
        rw [length_take_inFlight havailable] at hmoves hrx
        rwa [Device.bytesRead_readAnswers (h side).ignoring hrx] at hmoves
    · exact absurd hstep (Option.some_ne_none _).symm

private theorem IsFresh.follows (h : IsFresh l) (side : Side) : l.Follows side := by
  refine ⟨⟨l.dev side, h.dev side, ?_⟩, ?_⟩
  · rw [h.read, List.take_zero]
    exact .refl _
  · rw [h.read]
    exact Nat.zero_le _

/-! ## Delivery -/

/-- The commands and messages that the handlers of a device have been called for. -/
def requestsHandled (d : Device cfg H) : List (Packet (List UInt8)) :=
  (d.history Event.incoming?).filter fun p ↦ !p.isResponse

theorem Follows.ledgers (h : ∀ side, l.Follows side) (side : Side) :
    Device.SendLedger (l.dev side) ∧ Device.CallLedger (l.dev side) ∧
      Device.CallsOnce (l.dev side) := by
  obtain ⟨⟨d₀, hfresh, hmoves⟩, -⟩ := h side
  exact ⟨Device.kept_sendLedger.moves hmoves hfresh.sendLedger,
    Runs.Reaches.invariant hmoves (fun hmove ↦ hmove.callLedger) hfresh.callLedger,
    Device.callsOnce_of_slotAccounts (Device.Moves.slotAccounts hmoves hfresh)⟩

/-- **What a side handles are packets that its peer has written**, in order and each at most
once. -/
theorem Follows.incoming_sublist {side : Side} (h : ∀ side, l.Follows side)
    (hshort : (l.dev side.peer).NeverShort) :
    (l.dev side).history Event.incoming? <+ (l.dev side.peer).packetsWritten := by
  obtain ⟨⟨d₀, hfresh, hmoves⟩, -⟩ := h side
  obtain ⟨hledger, -, -⟩ := Follows.ledgers h side.peer
  set sender := l.dev side.peer
  have hlen : ∀ x ∈ sender.writes, x.packet.body.length ≤ cfg.maxPacketLen :=
    fun x hx ↦ Packet.length_body_le (hledger.data_length_le hx)
  have hclosed : d₀.closedFrames (sender.sent.take (l.read side))
      <+ sender.packetsWritten.map Packet.body := by
    let stream := sender.writes.map fun x ↦ (x.preFlag, x.packet.body)
    have hall : (Receiver.frames hdlc cfg.maxPacketLen Receiver.dropped
        (stream.flatMap fun q ↦ hdlc.frame q.1 q.2)).filter (· ≠ []) <+ stream.map Prod.snd := by
      refine filter_frames_stream_sublist (Or.inl rfl) stream fun q hq ↦ ?_
      obtain ⟨x, hx, rfl⟩ := List.mem_map.mp hq
      exact hlen x hx
    rw [List.flatMap_map, ← hledger.sent_eq hshort, List.map_map] at hall
    rw [Device.closedFrames, hfresh.waiting, Device.packetsWritten, List.map_map]
    exact ((Receiver.frames_prefix (List.take_prefix _ _)).sublist.filter _).trans hall
  obtain ⟨handled, hhandled, hsub⟩ := hmoves.exists_incoming fun body hbody ↦ by
    obtain ⟨p, hp, hpbody⟩ := List.mem_map.mp (hclosed.subset hbody)
    obtain ⟨x, hx, rfl⟩ := List.mem_map.mp hp
    exact ⟨x.packet, hledger.data_length_le hx, hpbody⟩
  have hnil : d₀.history Event.incoming? = [] := by
    rw [Device.history, hfresh.trace, List.filterMap_nil]
  rw [hhandled, hnil, List.nil_append]
  obtain ⟨handled', hsub', heq⟩ := List.sublist_map_iff.mp (hsub.trans hclosed)
  rwa [List.map_injective_iff.mpr Packet.body_injective heq]

private theorem Follows.nodup_returnIds {side : Side} (h : ∀ side, l.Follows side)
    (hshort : (l.dev side.peer).NeverShort)
    (hids : ((l.dev side.peer).history Event.assigned?).length < 2 ^ 32) :
    (((l.dev side).history Event.returnedCommand?).filterMap Packet.commandId?).Nodup := by
  obtain ⟨-, hcalls, -⟩ := Follows.ledgers h side
  obtain ⟨hledger, -, -⟩ := Follows.ledgers h side.peer
  have hincoming : ((l.dev side).history Event.commandCall?).filterMap Packet.commandId?
      = ((l.dev side).history Event.incoming?).filterMap Packet.commandId? := by
    rw [Device.history, Device.history, List.filterMap_filterMap, List.filterMap_filterMap]
    congr 1
    funext e
    rcases e with _ | _ | _ | _ | ⟨_, _, _, _, _, _ | _⟩ | _ | _ | _ | _ <;> rfl
  rw [hcalls.returns, hincoming]
  exact (hledger.nodup_commandIds hids).sublist ((Follows.incoming_sublist h hshort).filterMap _)

theorem Follows.exists_return {side : Side} (h : ∀ side, l.Follows side)
    (hshort : ∀ side, (l.dev side).NeverShort) {slot : Fin cfg.maxPendingCommands} {handler : H}
    {cmdId : UInt32} {status : UInt8} {data : List UInt8}
    (hcall : .responseCall slot handler cmdId status data .response ∈ (l.dev side).trace) :
    ∃ endpoint payload, Packet.command cmdId endpoint payload ∈ (l.dev side).packetsWritten ∧
      .commandReturn cmdId endpoint payload status data ∈ (l.dev side.peer).trace := by
  obtain ⟨-, hcalls, -⟩ := Follows.ledgers h side.peer
  have hresponse : Packet.response cmdId status data ∈ (l.dev side.peer).packetsWritten :=
    (Follows.incoming_sublist h (hshort side.peer)).subset
      (List.mem_filterMap.mpr ⟨_, hcall, rfl⟩)
  have hreturned := hcalls.responses_sublist.subset (List.mem_filter.mpr ⟨hresponse, rfl⟩)
  obtain ⟨e, he, heq⟩ := List.mem_filterMap.mp hreturned
  cases e with
  | commandReturn cmdId' endpoint payload status' response =>
    obtain ⟨rfl, rfl, rfl⟩ := Packet.response.inj (Option.some_inj.mp heq)
    refine ⟨endpoint, payload, ?_, he⟩
    have hcommand : Packet.command cmdId' endpoint payload
        ∈ (l.dev side.peer).history Event.commandCall? := by
      rw [← hcalls.returns]
      exact List.mem_filterMap.mpr ⟨_, he, rfl⟩
    obtain ⟨c, hc, hceq⟩ := List.mem_filterMap.mp hcommand
    have hincoming : Packet.command cmdId' endpoint payload
        ∈ (l.dev side.peer).history Event.incoming? := by
      refine List.mem_filterMap.mpr ⟨c, hc, ?_⟩
      cases c with
      | commandCall _ _ _ => exact hceq
      | _ => exact absurd hceq (Option.some_ne_none _).symm
    have hwritten := (Follows.incoming_sublist h (hshort side.peer.peer)).subset hincoming
    rwa [Side.peer_peer] at hwritten
  | _ => exact absurd heq (Option.some_ne_none _).symm

/-- What reaches one side of a line. -/
structure Delivers (l : Link cfg H) (side : Side) : Prop where
  /-- Commands and messages are among those the peer has written, in order and unchanged. -/
  requests : requestsHandled (l.dev side)
    <+ (l.dev side.peer).packetsWritten.filter fun p ↦ !p.isResponse
  /-- A response handler is called for a command accepted with it. The call reports a timeout of
  this side, or what the command handler of the peer has returned for the command with this id. -/
  responses : ∀ slot handler cmdId status data origin,
    .responseCall slot handler cmdId status data origin ∈ (l.dev side).trace →
      .accepted slot cmdId handler ∈ (l.dev side).trace ∧
        (origin = .cleanup ∧ status = statusTimeout ∧ data = [] ∨
          origin = .response ∧ ∃ endpoint payload,
            Packet.command cmdId endpoint payload ∈ (l.dev side).packetsWritten ∧
              .commandReturn cmdId endpoint payload status data ∈ (l.dev side.peer).trace)
  /-- No two commands written have the same id. -/
  commandIds : ((l.dev side).packetsWritten.filterMap Packet.commandId?).Nodup
  /-- No two response handler calls have the same id. -/
  callIds : ((l.dev side).handlerCalls.map Prod.fst).Nodup
  /-- No two calls of the command handler have the same id. -/
  returnIds : (((l.dev side).history Event.returnedCommand?).filterMap Packet.commandId?).Nodup

/-- **Delivery.** In every run of two clients on a line, from their construction on, in which the
streams accept every packet completely or not at all and no side assigns so many ids that its
counter wraps, each side's command and message handlers are called for some of what the peer has
written, in order, unchanged and each at most once; and each response handler is called at most
once, for a timeout or with the status and data that the peer's command handler has returned for
the command with that id. -/
theorem delivers_of_run (react : Side → ℕ → Reaction cfg H) (ops : List (LinkOp cfg H))
    {l₀ l : Link cfg H} (hfresh : l₀.IsFresh) (hrun : Runs.run (step react) l₀ ops = some l)
    (hshort : ∀ side, (l.dev side).NeverShort)
    (hids : ∀ side, ((l.dev side).history Event.assigned?).length < 2 ^ 32) (side : Side) :
    l.Delivers side := by
  have h : ∀ side, l.Follows side := Runs.invariant_of_run (P := fun l ↦ ∀ side, l.Follows side)
    (fun op _ a b ha hab ↦ follows_step hab ha) hfresh.follows hrun
  obtain ⟨hledger, -, honce⟩ := Follows.ledgers h side
  refine ⟨?_, ?_, ?_, ?_, ?_⟩
  · exact (Follows.incoming_sublist h (hshort side.peer)).filter _
  · intro slot handler cmdId status data origin hcall
    refine ⟨honce.accepted_of_call hcall, ?_⟩
    cases origin with
    | cleanup => exact Or.inl ⟨rfl, hledger.sound _ hcall⟩
    | response => exact Or.inr ⟨rfl, Follows.exists_return h hshort hcall⟩
  · exact hledger.nodup_commandIds (hids side)
  · have hacceptances : ((l.dev side).acceptances.map Prod.fst).Nodup := by
      have hsub := hledger.accepted
      rw [(hledger.numbered (hids side)).1] at hsub
      exact (Device.nodup_firstIds (hids side)).sublist hsub
    have hle : ((l.dev side).handlerCalls : Multiset (UInt32 × H)) ≤ (l.dev side).acceptances := by
      rw [honce.partition]
      exact Multiset.le_add_right _ _
    exact Multiset.coe_nodup.mp (Multiset.nodup_of_le (Multiset.map_le_map hle)
      (Multiset.coe_nodup.mpr hacceptances))
  · exact Follows.nodup_returnIds h (hshort side.peer) (hids side.peer)

/-- Two clients with handlers. -/
def freshPair : Link Config.default Unit :=
  ⟨fun _ ↦ Device.create (some ()) (some ()) 0, fun _ ↦ 0⟩

/-- A command handler that returns a status and no data. -/
def answering (_ : Side) (_ : ℕ) : Reaction Config.default Unit :=
  ⟨[.setStatus 0x99], ⟨0, 0, 100, 100, 0⟩⟩

/-- A command, which is read in two parts, and its response. -/
def exchange : List (LinkOp Config.default Unit) :=
  [.begin .left, .begin .right,
    .sendCommand .left 0x20 Device.noBytes (some ()) 1000 ⟨0, 0, 100, 100, 0⟩,
    .loop .right 5 [0] 0 0, .loop .right 5 [0] 0 0, .loop .left 10 [0] 0 0]

theorem isSome_run_exchange : (Runs.run (step answering) freshPair exchange).isSome := by
  decide +kernel

theorem delivers_of_run_exchange :
    ∃ l, Runs.run (step answering) freshPair exchange = some l ∧
      Packet.response 1 0x99 [] ∈ (l.dev .left).history Event.incoming? ∧ l.Delivers .left := by
  have hrun := (Option.some_get isSome_run_exchange).symm
  refine ⟨_, hrun, by decide +kernel, delivers_of_run answering exchange
    ⟨fun _ ↦ Device.isFresh_create _ _ _, fun _ ↦ rfl⟩ hrun ?_ ?_ .left⟩
  · rintro (_ | _) <;> decide +kernel
  · rintro (_ | _) <;> decide +kernel

end Link

end SerialPackets

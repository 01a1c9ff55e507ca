import SerialPackets.Client.Calls

/-!
# The ledger of a client

The history of a client accounts for everything it has sent. The bytes sent are those of the
attempts to send, which are the packets written, one after another, if no write is short. Every id
assigned is the id of one attempt to send a command, so that no two commands have the same id until
the counter wraps.
-/

namespace SerialPackets

open Framing
open scoped List

variable {cfg : Config} {H : Type*}

/-- The id of a command. -/
def Packet.commandId? {D : Type*} : Packet D → Option UInt32
  | command cmdId _ _ => some cmdId
  | _ => none

namespace Event

def assigned? : Event cfg H → Option UInt32
  | .idAssigned cmdId => some cmdId
  | _ => none

/-- The id of the command that an event attempts to send. -/
def sentCommandId? : Event cfg H → Option UInt32
  | .transmitted x => x.packet.commandId?
  | _ => none

/-- The bytes of an attempt to send are those of its packet, up to where the stream stopped, and a
timeout says that it is one. -/
def Sound : Event cfg H → Prop
  | .transmitted x =>
    x.packet.data.length ≤ cfg.maxPacketDataLen ∧
      (∃ tx, x.outcome = .ofSize cfg (Packet.wire x.preFlag x.packet).length tx) ∧
      x.bytes = (Packet.wire x.preFlag x.packet).take x.outcome.written
  | .responseCall _ _ _ status data .cleanup => status = statusTimeout ∧ data = []
  | _ => True

end Event

namespace Device

variable {d d' : Device cfg H} {bytes : List UInt8}

private theorem Transmits.sound {start : ℕ} {p : Packet (List UInt8)} {tx : TxAnswers}
    {x : Transmission}
    (h : Transmits d d' start p tx x) : (Event.transmitted x : Event cfg H).Sound := by
  refine ⟨h.packet ▸ h.data_le, ⟨tx, ?_⟩, ?_⟩
  · rw [h.packet]
    exact h.outcome
  · rw [h.packet]
    exact h.bytes

/-! ## What is sent -/

/-- The ids of a client in the order in which they are assigned, up to the wrap of the counter. -/
def firstIds (n : ℕ) : List UInt32 := (List.range n).map fun k ↦ UInt32.ofNat (k + 1)

theorem nodup_firstIds {n : ℕ} (h : n < 2 ^ 32) : (firstIds n).Nodup := by
  refine List.Nodup.map_on (fun a ha b hb hab ↦ ?_) List.nodup_range
  rw [List.mem_range] at ha hb
  have hab' := congrArg UInt32.toNat hab
  rw [UInt32.toNat_ofNat_of_lt' (by unfold UInt32.size; omega),
    UInt32.toNat_ofNat_of_lt' (by unfold UInt32.size; omega)] at hab'
  exact Nat.succ_injective hab'

private theorem nextCmdId_ofNat {n : ℕ} (h : n + 1 < 2 ^ 32) :
    nextCmdId (UInt32.ofNat n) = UInt32.ofNat (n + 1) := by
  have hne : UInt32.ofNat n + 1 ≠ 0 := by
    rw [← UInt32.ofNat_one, ← UInt32.ofNat_add]
    intro h0
    have h0' := congrArg UInt32.toNat h0
    rw [UInt32.toNat_ofNat_of_lt' (by unfold UInt32.size; omega)] at h0'
    exact Nat.succ_ne_zero n h0'
  rw [nextCmdId, if_neg hne, UInt32.ofNat_add]
  rfl

/-- Everything sent is an attempt to send a packet; every id assigned is the id of one attempt to
send a command, and the accepted commands have ids of their own. -/
structure SendLedger (d : Device cfg H) : Prop where
  sent : d.sent = (d.history Event.transmission?).flatMap Transmission.bytes
  ids : d.history Event.sentCommandId? = d.history Event.assigned?
  numbered : (d.history Event.assigned?).length < 2 ^ 32 →
    d.history Event.assigned? = firstIds (d.history Event.assigned?).length ∧
      d.cmdIdCounter = UInt32.ofNat (d.history Event.assigned?).length
  accepted : d.acceptances.map Prod.fst <+ d.history Event.assigned?
  sound : ∀ e ∈ d.trace, e.Sound

private theorem SendLedger.extend (h : SendLedger d) (events : List (Event cfg H))
    (htrace : d'.trace = d.trace ++ events)
    (hsent : d'.sent = d.sent ++ (events.filterMap Event.transmission?).flatMap Transmission.bytes)
    (hids : events.filterMap Event.sentCommandId? = events.filterMap Event.assigned?)
    (hcounter : events.filterMap Event.assigned? = [] ∧ d'.cmdIdCounter = d.cmdIdCounter ∨
      events.filterMap Event.assigned? = [nextCmdId d.cmdIdCounter] ∧
        d'.cmdIdCounter = nextCmdId d.cmdIdCounter)
    (haccepted : (events.filterMap Event.accepted?).map Prod.fst
      <+ events.filterMap Event.assigned?)
    (hsound : ∀ e ∈ events, e.Sound) : SendLedger d' := by
  refine ⟨?_, ?_, ?_, ?_, ?_⟩
  · rw [hsent, h.sent, history_append _ htrace, List.flatMap_append]
  · rw [history_append _ htrace, history_append _ htrace, h.ids, hids]
  · rw [history_append _ htrace]
    rcases hcounter with ⟨hnone, hcounter⟩ | ⟨hone, hcounter⟩
    · rw [hnone, List.append_nil, hcounter]
      exact h.numbered
    · rw [hone, hcounter, List.length_append, List.length_singleton]
      intro hlt
      obtain ⟨hids', hcounter'⟩ := h.numbered (Nat.lt_of_succ_lt hlt)
      have hnext : nextCmdId d.cmdIdCounter
          = UInt32.ofNat ((d.history Event.assigned?).length + 1) := by
        rw [hcounter', nextCmdId_ofNat hlt]
      refine ⟨?_, hnext⟩
      rw [firstIds, List.range_succ, List.map_append, ← firstIds, ← hids', hnext]
      rfl
  · rw [acceptances, history_append _ htrace, history_append _ htrace, List.map_append]
    exact h.accepted.append haccepted
  · rw [htrace]
    exact List.forall_mem_append.mpr ⟨h.sound, hsound⟩

private theorem SendLedger.still (h : SendLedger d) (hstill : Still d d') : SendLedger d' :=
  h.extend [] (by rw [hstill.trace, List.append_nil])
    (by rw [hstill.sent]; exact (List.append_nil _).symm) rfl (Or.inl ⟨rfl, hstill.counter⟩)
    (List.Sublist.refl _) (by simp)

private theorem SendLedger.transmits (h : SendLedger d) {start : ℕ} {p : Packet (List UInt8)}
    {tx : TxAnswers} {x : Transmission} (htx : Transmits d d' start p tx x)
    (hp : p.commandId? = none) : SendLedger d' := by
  have hid : (Event.transmitted x : Event cfg H).sentCommandId? = none := by
    rw [Event.sentCommandId?, htx.packet, hp]
  refine h.extend _ htx.trace ?_ ?_ (Or.inl ⟨rfl, htx.counter⟩) (List.Sublist.refl _) ?_
  · rw [htx.sent]
    exact congrArg _ (List.append_nil _).symm
  · rw [List.filterMap_cons_none hid]
    rfl
  · exact List.forall_mem_singleton.mpr htx.sound

private theorem Send.sendLedger (hsend : Send d d') (h : SendLedger d) : SendLedger d' := by
  obtain ⟨events, houtline, htrace, hsent⟩ := hsend.exists_outline
  have hid {d₁ : Device cfg H} {cmdId : UInt32} {endpoint : UInt8} {data : List UInt8}
      {tx : TxAnswers} {x : Transmission}
      (htx : Transmits d.assignCmdId d₁ d.now (.command cmdId endpoint data) tx x) :
      (Event.transmitted x : Event cfg H).sentCommandId? = some cmdId := by
    rw [Event.sentCommandId?, htx.packet]
    rfl
  generalize hcounter : d'.cmdIdCounter = counter at houtline
  cases houtline with
  | quiet =>
    exact h.extend _ htrace hsent rfl (Or.inl ⟨rfl, hcounter⟩) (List.Sublist.refl _) (by simp)
  | @message _ _ _ x _ htx =>
    have hnone : (Event.transmitted x : Event cfg H).sentCommandId? = none := by
      rw [Event.sentCommandId?, htx.packet]
      rfl
    refine h.extend _ htrace hsent ?_ (Or.inl ⟨rfl, hcounter⟩) (List.Sublist.refl _) ?_
    · rw [List.filterMap_cons_none hnone]
      rfl
    · exact List.forall_mem_singleton.mpr htx.sound
  | command htx =>
    refine h.extend _ htrace hsent ?_ (Or.inr ⟨rfl, hcounter⟩) (List.nil_sublist _) ?_
    · rw [List.filterMap_cons_none rfl, List.filterMap_cons_some (hid htx)]
      rfl
    · rw [List.forall_mem_cons, List.forall_mem_singleton]
      exact ⟨trivial, htx.sound⟩
  | acceptedCommand htx slot handler =>
    refine h.extend _ htrace hsent ?_ (Or.inr ⟨rfl, hcounter⟩) (List.Sublist.refl _) ?_
    · rw [List.filterMap_cons_none rfl, List.filterMap_cons_some (hid htx)]
      rfl
    · rw [List.forall_mem_cons, List.forall_mem_cons, List.forall_mem_singleton]
      exact ⟨trivial, htx.sound, trivial⟩

private theorem SendLedger.event (h : SendLedger d) {e : Event cfg H}
    (htrace : d'.trace = d.trace ++ [e])
    (hsent : d'.sent = d.sent) (hcounter : d'.cmdIdCounter = d.cmdIdCounter)
    (htransmission : e.transmission? = none) (hid : e.assigned? = none)
    (haccepted : e.accepted? = none) (hsound : e.Sound) : SendLedger d' := by
  have hsentId : e.sentCommandId? = none := by
    cases e with
    | transmitted x => exact absurd htransmission (Option.some_ne_none x)
    | _ => rfl
  refine h.extend _ htrace ?_ ?_ (Or.inl ⟨?_, hcounter⟩) ?_ (List.forall_mem_singleton.mpr hsound)
  · rw [hsent, List.filterMap_cons_none htransmission]
    exact (List.append_nil _).symm
  · rw [List.filterMap_cons_none hsentId, List.filterMap_cons_none hid]
    rfl
  · rw [List.filterMap_cons_none hid]
    rfl
  · rw [List.filterMap_cons_none haccepted]
    exact List.nil_sublist _

private theorem SendLedger.emit (h : SendLedger d) (e : Event cfg H)
    (htransmission : e.transmission? = none) (hid : e.assigned? = none)
    (haccepted : e.accepted? = none) (hsound : e.Sound) :
    SendLedger (d.emit e) := h.event rfl rfl rfl htransmission hid haccepted hsound

private theorem SendLedger.clearContext (h : SendLedger d) (slot : Fin cfg.maxPendingCommands) :
    SendLedger (d.clearContext slot) :=
  h.event (e := .released slot) rfl rfl rfl rfl rfl rfl trivial

theorem kept_sendLedger : Kept (SendLedger : Device cfg H → Prop) where
  send := Send.sendLedger
  still hstill h := h.still hstill
  begin {d} hbegun h := by
    rw [begin_of_not_begun hbegun]
    exact h.event (e := .begun d.now) rfl rfl rfl rfl rfl rfl trivial
  call hcall h := by
    rcases hcall with _ | _ | _ | _ | _
    · exact h.emit _ rfl rfl rfl trivial
    · exact h.emit _ rfl rfl rfl trivial
    · exact h.emit _ rfl rfl rfl trivial
    · exact h.emit _ rfl rfl rfl trivial
    · exact h.emit _ rfl rfl rfl ⟨rfl, rfl⟩
  respond _ hresponse h := h.transmits hresponse rfl
  clear slot h := h.clearContext slot

theorem IsFresh.sendLedger (h : IsFresh d) : SendLedger d := by
  refine ⟨?_, ?_, ?_, ?_, ?_⟩
  · rw [h.sent, history, h.trace]
    rfl
  · rw [history, history, h.trace]
    rfl
  · rw [history, h.trace, h.counter]
    exact fun _ ↦ ⟨rfl, rfl⟩
  · rw [acceptances, history, h.trace]
    exact List.nil_sublist _
  · rw [h.trace]
    exact fun _ he ↦ absurd he List.not_mem_nil

/-! ## What is written -/

theorem Send.sent_prefix (h : Send d d') : d.sent <+: d'.sent := by
  obtain ⟨events, -, -, hsent⟩ := h.exists_outline
  rw [hsent]
  exact List.prefix_append _ _

theorem Sends.sent_prefix (h : Sends d d') : d.sent <+: d'.sent := by
  induction h with
  | refl => exact List.prefix_refl _
  | tail _ hsend ih => exact ih.trans hsend.sent_prefix

theorem Move.sent_prefix (h : Move d bytes d') : d.sent <+: d'.sent := by
  cases h with
  | send h => exact h.sent_prefix
  | begin h =>
    rw [begin_of_not_begun h]
    exact List.prefix_refl _
  | byte h => exact h.sent ▸ List.prefix_refl _
  | command h _ hbody hresponse =>
    rw [hresponse.sent]
    exact (h.sent ▸ hbody.sent_prefix).trans (List.prefix_append _ _)
  | message h _ hbody => exact h.sent ▸ hbody.sent_prefix
  | response h _ _ _ _ hbody => exact h.sent ▸ hbody.sent_prefix
  | timeout _ _ _ hbody => exact hbody.sent_prefix
  | orphan => exact List.prefix_refl _

theorem Moves.sent_prefix (h : Moves d bytes d') : d.sent <+: d'.sent := by
  induction h with
  | refl => exact List.prefix_refl _
  | tail _ hmove ih => exact ih.trans hmove.sent_prefix

/-- The attempts to send whose packets were written completely. -/
def writes (d : Device cfg H) : List Transmission :=
  (d.history Event.transmission?).filter fun x ↦ x.outcome.IsComplete

/-- The packets written completely, in order. -/
def packetsWritten (d : Device cfg H) : List (Packet (List UInt8)) :=
  d.writes.map Transmission.packet

/-- No packet was written in part. -/
def NeverShort (d : Device cfg H) : Prop :=
  ∀ x ∈ d.history Event.transmission?, ¬x.outcome.IsShort

instance : DecidablePred (NeverShort : Device cfg H → Prop) := fun d ↦
  inferInstanceAs (Decidable (∀ x ∈ d.history Event.transmission?, ¬x.outcome.IsShort))

theorem mem_history_transmission_iff {x : Transmission} :
    x ∈ d.history Event.transmission? ↔ Event.transmitted x ∈ d.trace := by
  rw [history, List.mem_filterMap]
  constructor
  · rintro ⟨e, he, hx⟩
    cases e with
    | transmitted y => exact Option.some_inj.mp hx ▸ he
    | _ => exact absurd hx (Option.some_ne_none x).symm
  · exact fun h ↦ ⟨_, h, rfl⟩

/-- **What is on the line** are the packets written, one after another. -/
theorem SendLedger.sent_eq (h : SendLedger d) (hshort : NeverShort d) :
    d.sent = d.writes.flatMap fun x ↦ hdlc.frame x.preFlag x.packet.body := by
  have hall : ∀ x ∈ d.history Event.transmission?, ¬x.outcome.IsShort ∧
      (Event.transmitted x : Event cfg H).Sound := by
    exact fun x hx ↦ ⟨hshort x hx, h.sound _ (mem_history_transmission_iff.mp hx)⟩
  rw [h.sent, writes]
  generalize d.history Event.transmission? = attempts at hall
  induction attempts with
  | nil => rfl
  | cons x attempts ih =>
    obtain ⟨⟨hx, -, ⟨tx, houtcome⟩, hbytes⟩, hrest⟩ := List.forall_mem_cons.mp hall
    rw [List.flatMap_cons, ih hrest]
    rw [houtcome] at hx hbytes
    by_cases hcomplete : x.outcome.IsComplete
    · rw [List.filter_cons_of_pos (by simpa using hcomplete), List.flatMap_cons]
      rw [houtcome] at hcomplete
      rw [hbytes, TxOutcome.take_written_of_isComplete hcomplete]
      rfl
    · rw [List.filter_cons_of_neg (by simpa using hcomplete)]
      rw [houtcome] at hcomplete
      rw [hbytes, TxOutcome.take_written_of_not_wrote hcomplete hx, List.nil_append]

theorem SendLedger.data_length_le (h : SendLedger d) {x : Transmission} (hx : x ∈ d.writes) :
    x.packet.data.length ≤ cfg.maxPacketDataLen :=
  (h.sound _ (mem_history_transmission_iff.mp (List.mem_of_mem_filter hx))).1

/-- **One command for each id**, until the counter wraps. -/
theorem SendLedger.nodup_commandIds (h : SendLedger d)
    (hids : (d.history Event.assigned?).length < 2 ^ 32) :
    (d.packetsWritten.filterMap Packet.commandId?).Nodup := by
  have hsub : d.packetsWritten.filterMap Packet.commandId? <+ d.history Event.assigned? := by
    have hall : d.history Event.sentCommandId?
        = ((d.history Event.transmission?).map Transmission.packet).filterMap
            Packet.commandId? := by
      rw [history, history, List.filterMap_map, List.filterMap_filterMap]
      congr 1
      funext e
      cases e <;> rfl
    rw [← h.ids, hall]
    exact (List.filter_sublist.map _).filterMap _
  rw [(h.numbered hids).1] at hsub
  exact (nodup_firstIds hids).sublist hsub

theorem CallLedger.responses_sublist (h : CallLedger d) :
    d.packetsWritten.filter Packet.isResponse <+ d.history Event.returnedResponse? := by
  have hall : d.history Event.answer?
      = ((d.history Event.transmission?).map Transmission.packet).filter Packet.isResponse := by
    rw [history, history, ← List.filterMap_eq_filter, List.filterMap_map, List.filterMap_filterMap]
    congr 1
    funext e
    cases e with
    | transmitted x =>
      change (if x.packet.isResponse then some x.packet else none) = Option.guard _ _
      rw [Option.guard]
    | _ => rfl
  rw [← h.answers, hall]
  exact (List.filter_sublist.map _).filter _

end Device

end SerialPackets

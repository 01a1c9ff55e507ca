import SerialPackets.Client.Pending
import SerialPackets.Codec.RoundTrip

/-!
# Calls of the handlers

What a move adds to the history of a client is known up to what callbacks send, which is neither
about calls nor about responses. It follows that every response answers one call of the command
handler, with what that call returned, and that what is handled are frames that the decoder closes,
in order and each at most once.
-/

namespace SerialPackets

open Framing
open scoped List

variable {cfg : Config} {H : Type*}

namespace Packet

variable {D : Type*}

def isResponse : Packet D → Bool
  | response _ _ _ => true
  | _ => false

theorem body_injective : Function.Injective (Packet.body) := by
  intro p q h
  obtain ⟨m, payload, rfl⟩ := p.exists_metadata
  obtain ⟨m', payload', rfl⟩ := q.exists_metadata
  obtain ⟨rfl, rfl⟩ := DecodedPacketMetadata.body_injective h
  rfl

end Packet

/-! ## What events say -/

namespace Event

def transmission? : Event cfg H → Option Transmission
  | .transmitted x => some x
  | _ => none

/-- The response that an event attempts to send. -/
def answer? : Event cfg H → Option (Packet (List UInt8))
  | .transmitted x => if x.packet.isResponse then some x.packet else none
  | _ => none

/-- The response that the command handler has filled in. -/
def returnedResponse? : Event cfg H → Option (Packet (List UInt8))
  | .commandReturn cmdId _ _ status response => some (.response cmdId status response)
  | _ => none

/-- The command that the command handler has returned from. -/
def returnedCommand? : Event cfg H → Option (Packet (List UInt8))
  | .commandReturn cmdId endpoint data _ _ => some (.command cmdId endpoint data)
  | _ => none

/-- The command that the command handler is called for. -/
def commandCall? : Event cfg H → Option (Packet (List UInt8))
  | .commandCall cmdId endpoint data => some (.command cmdId endpoint data)
  | _ => none

/-- The packet that a callback is called for. -/
def incoming? : Event cfg H → Option (Packet (List UInt8))
  | .commandCall cmdId endpoint data => some (.command cmdId endpoint data)
  | .messageCall endpoint data => some (.message endpoint data)
  | .responseCall _ _ cmdId status data .response => some (.response cmdId status data)
  | _ => none

/-- The events of a callback that sends. -/
def IsSend : Event cfg H → Prop
  | .idAssigned _ => True
  | .transmitted x => x.packet.isResponse = false
  | .accepted _ _ _ => True
  | _ => False

/-- What reads nothing off these events. -/
def IgnoresSends {β : Type*} (f : Event cfg H → Option β) : Prop := ∀ e, e.IsSend → f e = none

theorem ignoresSends_of {β : Type*} {f : Event cfg H → Option β}
    (hassigned : ∀ cmdId, f (.idAssigned cmdId) = none)
    (htransmitted : ∀ x, x.packet.isResponse = false → f (.transmitted x) = none)
    (haccepted : ∀ slot cmdId handler, f (.accepted slot cmdId handler) = none) :
    IgnoresSends f := by
  intro e he
  cases e with
  | idAssigned cmdId => exact hassigned cmdId
  | transmitted x => exact htransmitted x he
  | accepted slot cmdId handler => exact haccepted slot cmdId handler
  | _ => exact False.elim he

private theorem ignoresSends_answer : IgnoresSends (answer? : Event cfg H → _) := by
  refine ignoresSends_of (fun _ ↦ rfl) (fun x hx ↦ if_neg ?_) fun _ _ _ ↦ rfl
  rw [hx]
  exact Bool.false_ne_true

private theorem ignoresSends_returnedResponse :
    IgnoresSends (returnedResponse? : Event cfg H → _) :=
  ignoresSends_of (fun _ ↦ rfl) (fun _ _ ↦ rfl) fun _ _ _ ↦ rfl

private theorem ignoresSends_returnedCommand : IgnoresSends (returnedCommand? : Event cfg H → _) :=
  ignoresSends_of (fun _ ↦ rfl) (fun _ _ ↦ rfl) fun _ _ _ ↦ rfl

private theorem ignoresSends_commandCall : IgnoresSends (commandCall? : Event cfg H → _) :=
  ignoresSends_of (fun _ ↦ rfl) (fun _ _ ↦ rfl) fun _ _ _ ↦ rfl

theorem ignoresSends_incoming : IgnoresSends (incoming? : Event cfg H → _) :=
  ignoresSends_of (fun _ ↦ rfl) (fun _ _ ↦ rfl) fun _ _ _ ↦ rfl

end Event

namespace Device

variable {d d' : Device cfg H} {bytes : List UInt8}

/-! ## The outline of a move -/

/-- The events of one thing that a callback does to its client, and the id counter after it. -/
inductive SendOutline (d : Device cfg H) : List (Event cfg H) → UInt32 → Prop
  | quiet : SendOutline d [] d.cmdIdCounter
  | message {endpoint : UInt8} {data : List UInt8} {tx : TxAnswers} {x : Transmission}
      {d₁ : Device cfg H} (h : Transmits d d₁ d.now (.message endpoint data) tx x) :
      SendOutline d [.transmitted x] d.cmdIdCounter
  | command {endpoint : UInt8} {data : List UInt8} {tx : TxAnswers} {x : Transmission}
      {d₁ : Device cfg H}
      (h : Transmits d.assignCmdId d₁ d.now
        (.command (nextCmdId d.cmdIdCounter) endpoint data) tx x) :
      SendOutline d [.idAssigned (nextCmdId d.cmdIdCounter), .transmitted x]
        (nextCmdId d.cmdIdCounter)
  | acceptedCommand {endpoint : UInt8} {data : List UInt8} {tx : TxAnswers} {x : Transmission}
      {d₁ : Device cfg H}
      (h : Transmits d.assignCmdId d₁ d.now
        (.command (nextCmdId d.cmdIdCounter) endpoint data) tx x)
      (slot : Fin cfg.maxPendingCommands) (handler : H) :
      SendOutline d [.idAssigned (nextCmdId d.cmdIdCounter), .transmitted x,
        .accepted slot (nextCmdId d.cmdIdCounter) handler] (nextCmdId d.cmdIdCounter)

theorem Send.exists_outline (h : Send d d') :
    ∃ events, SendOutline d events d'.cmdIdCounter ∧ d'.trace = d.trace ++ events ∧
      d'.sent = d.sent ++ (events.filterMap Event.transmission?).flatMap Transmission.bytes := by
  cases h with
  | quiet h =>
    refine ⟨[], h.counter ▸ .quiet, ?_, ?_⟩
    · rw [h.trace, List.append_nil]
    · rw [h.sent]
      exact (List.append_nil _).symm
  | message h =>
    refine ⟨_, h.counter ▸ .message h, h.trace, ?_⟩
    rw [h.sent]
    exact congrArg _ (List.append_nil _).symm
  | command h _ =>
    refine ⟨_, by rw [h.counter]; exact .command h, ?_, ?_⟩
    · rw [h.trace, assignCmdId, List.append_assoc]
      rfl
    · rw [h.sent]
      exact congrArg _ (List.append_nil _).symm
  | @acceptedCommand _ _ _ _ _ h _ slot _ handler timeoutMillis =>
    refine ⟨_, by rw [setUpContext, h.counter]; exact .acceptedCommand h slot handler, ?_, ?_⟩
    · rw [setUpContext, h.trace, assignCmdId, List.append_assoc, List.append_assoc]
      rfl
    · rw [setUpContext, h.sent]
      exact congrArg _ (List.append_nil _).symm

private theorem SendOutline.isSend {events : List (Event cfg H)} {counter : UInt32}
    (h : SendOutline d events counter) : ∀ e ∈ events, e.IsSend := by
  have hattempt {d₀ d₁ : Device cfg H} {start : ℕ} {p : Packet (List UInt8)} {tx : TxAnswers}
      {x : Transmission} (h : Transmits d₀ d₁ start p tx x) (hp : p.isResponse = false) :
      (Event.transmitted x : Event cfg H).IsSend := by
    rw [Event.IsSend, h.packet]
    exact hp
  cases h with
  | quiet => simp
  | message h => simpa using hattempt h rfl
  | command h => simpa [Event.IsSend] using hattempt h rfl
  | acceptedCommand h slot handler => simpa [Event.IsSend] using hattempt h rfl

theorem Sends.history {β : Type*} {f : Event cfg H → Option β} (h : Sends d d')
    (hf : Event.IgnoresSends f) : d'.history f = d.history f := by
  induction h with
  | refl => rfl
  | tail _ hsend ih =>
    obtain ⟨events, houtline, htrace, -⟩ := hsend.exists_outline
    rw [history_append f htrace,
      List.filterMap_eq_nil_iff.mpr fun e he ↦ hf e (houtline.isSend e he),
      List.append_nil, ih]

/-- The events of a move, without those of the callback that it runs. -/
inductive Outline (d : Device cfg H) : List UInt8 → List (Event cfg H) → Prop
  | silent (bytes : List UInt8) : Outline d bytes []
  | begun (time : ℕ) : Outline d [] [.begun time]
  | command {b endpoint status : UInt8} {cmdId : UInt32} {data response : List UInt8}
      {x : Transmission}
      (hreport : d.packetDecoder.reportAt b = some (.command cmdId endpoint data))
      (hanswer : x.packet = .response cmdId status response) :
      Outline d [b] [.commandCall cmdId endpoint data,
        .commandReturn cmdId endpoint data status response, .transmitted x]
  | message {b endpoint : UInt8} {data : List UInt8}
      (hreport : d.packetDecoder.reportAt b = some (.message endpoint data)) :
      Outline d [b] [.messageCall endpoint data]
  | response {b status : UInt8} {cmdId : UInt32} {data : List UInt8}
      (slot : Fin cfg.maxPendingCommands) (handler : H)
      (hreport : d.packetDecoder.reportAt b = some (.response cmdId status data)) :
      Outline d [b] [.responseCall slot handler cmdId status data .response, .released slot]
  | timeout (cmdId : UInt32) (slot : Fin cfg.maxPendingCommands) (handler : H) :
      Outline d [] [.responseCall slot handler cmdId statusTimeout [] .cleanup, .released slot]
  | orphan (slot : Fin cfg.maxPendingCommands) : Outline d [] [.released slot]

private theorem Move.exists_outline (h : Move d bytes d') :
    ∃ events, Outline d bytes events ∧
      ∀ f : Event cfg H → Option (Packet (List UInt8)), Event.IgnoresSends f →
        d'.history f = d.history f ++ events.filterMap f := by
  have hlist (f : Event cfg H → Option (Packet (List UInt8))) (a b : Event cfg H) :
      (f a).toList ++ (f b).toList = [a, b].filterMap f := by
    cases ha : f a <;> cases hb : f b <;> simp [ha, hb]
  cases h with
  | send h => exact ⟨[], .silent [], fun f hf ↦ by
      rw [(Sends.history (.single h) hf), List.filterMap_nil, List.append_nil]⟩
  | begin hbegun =>
    refine ⟨[.begun d.now], .begun d.now, fun f _ ↦ history_append f ?_⟩
    rw [begin_of_not_begun hbegun]
    rfl
  | byte h => exact ⟨[], .silent _, fun f _ ↦ by
      rw [h.toStill.history, List.filterMap_nil, List.append_nil]⟩
  | command h hreport hbody hresponse =>
    refine ⟨_, .command hreport hresponse.packet, fun f hf ↦ ?_⟩
    rw [hresponse.history, history_emit, hbody.history hf, history_emit, h.toStill.history,
      List.append_assoc, List.append_assoc, hlist]
    simp only [List.filterMap_cons]
    cases f (.commandCall _ _ _) <;> rfl
  | message h hreport hbody =>
    refine ⟨_, .message hreport, fun f hf ↦ ?_⟩
    rw [hbody.history hf, history_append f rfl, h.toStill.history]
  | @response _ _ _ _ _ _ slot handler h hreport _ _ _ hbody =>
    refine ⟨_, .response slot handler hreport, fun f hf ↦ ?_⟩
    rw [history_clearContext, hbody.history hf, history_emit, h.toStill.history, List.append_assoc,
      hlist]
  | @timeout _ cmdId slot handler _ _ _ hbody =>
    refine ⟨_, .timeout cmdId slot handler, fun f hf ↦ ?_⟩
    rw [history_clearContext, hbody.history hf, history_emit, List.append_assoc, hlist]
  | @orphan slot => exact ⟨_, .orphan slot, fun f _ ↦ history_append f rfl⟩

/-! ## Calls and answers -/

/-- Every call of the command handler has been answered with what it returned. -/
structure CallLedger (d : Device cfg H) : Prop where
  answers : d.history Event.answer? = d.history Event.returnedResponse?
  returns : d.history Event.returnedCommand? = d.history Event.commandCall?

theorem Move.callLedger (h : Move d bytes d') (hd : CallLedger d) : CallLedger d' := by
  obtain ⟨events, houtline, hhistory⟩ := h.exists_outline
  constructor
  · rw [hhistory _ Event.ignoresSends_answer, hhistory _ Event.ignoresSends_returnedResponse,
      hd.answers]
    cases houtline with
    | command hreport hanswer =>
      simp [List.filterMap_cons, Event.answer?, Event.returnedResponse?, hanswer, Packet.isResponse]
    | _ => rfl
  · rw [hhistory _ Event.ignoresSends_returnedCommand, hhistory _ Event.ignoresSends_commandCall,
      hd.returns]
    cases houtline <;> rfl

theorem IsFresh.callLedger (h : IsFresh d) : CallLedger d := by
  constructor <;> rw [history, history, h.trace] <;> rfl

/-! ## What is handled -/

private theorem closes_of_reportAt {decoder : SerialPacketsDecoder cfg} {b : UInt8}
    {p : Packet (List UInt8)} (hreport : decoder.reportAt b = some p)
    (hclosed : ∀ body, Receiver.closes hdlc decoder.receiver b = some body → body ≠ [] →
      ∃ q : Packet (List UInt8), q.data.length ≤ cfg.maxPacketDataLen ∧ q.body = body) :
    Receiver.closes hdlc decoder.receiver b = some p.body := by
  have hnew : (decoder.decodeNextByte b).hasNewPacket = true := by
    by_contra hnot
    rw [SerialPacketsDecoder.reportAt, if_neg hnot] at hreport
    exact Option.some_ne_none _ hreport.symm
  obtain ⟨m, payload, hcloses⟩ := (decoder.hasNewPacket_decodeNextByte_iff b).mp hnew
  obtain ⟨q, hdata, hq⟩ := hclosed _ hcloses (Packet.body_ne_nil _)
  rw [← hq] at hcloses
  rw [SerialPacketsDecoder.reportAt_of_closes hcloses hdata, Option.some_inj] at hreport
  rw [hcloses, hreport]

/-- The frames that a device closes on some bytes, without the empty ones. -/
def closedFrames (d : Device cfg H) (bytes : List UInt8) : List (List UInt8) :=
  (Receiver.frames hdlc cfg.maxPacketLen d.packetDecoder.receiver bytes).filter (· ≠ [])

private theorem closedFrames_singleton {b : UInt8} {p : Packet (List UInt8)}
    (h : Receiver.closes hdlc d.packetDecoder.receiver b = some p.body) :
    d.closedFrames [b] = [p.body] := by
  rw [closedFrames, Receiver.frames_cons, h, Receiver.frames_nil, List.append_nil]
  exact List.filter_cons_of_pos (by simpa using p.body_ne_nil)

/-- **One move handles what its byte closes**, or nothing. -/
theorem Move.exists_incoming (h : Move d bytes d')
    (hclosed : ∀ body ∈ d.closedFrames bytes,
      ∃ q : Packet (List UInt8), q.data.length ≤ cfg.maxPacketDataLen ∧ q.body = body) :
    ∃ handled, d'.history Event.incoming? = d.history Event.incoming? ++ handled ∧
      handled.map Packet.body <+ d.closedFrames bytes := by
  obtain ⟨events, houtline, hhistory⟩ := h.exists_outline
  refine ⟨_, hhistory _ Event.ignoresSends_incoming, ?_⟩
  have hframe {b : UInt8} {p : Packet (List UInt8)} (hbytes : bytes = [b])
      (hreport : d.packetDecoder.reportAt b = some p) :
      [p].map Packet.body <+ d.closedFrames bytes := by
    subst hbytes
    rw [closedFrames_singleton (closes_of_reportAt hreport fun body hbody hne ↦ hclosed body ?_)]
    · exact List.Sublist.refl _
    · rw [closedFrames, Receiver.frames_cons, hbody]
      exact List.mem_filter.mpr ⟨List.mem_cons_self, by simpa using hne⟩
  cases houtline with
  | command hreport _ => exact hframe rfl hreport
  | message hreport => exact hframe rfl hreport
  | response slot handler hreport => exact hframe rfl hreport
  | _ => exact List.nil_sublist _

/-- **What a client handles** are frames that its decoder closes, in order and each at most once. -/
theorem Moves.exists_incoming (h : Moves d bytes d')
    (hclosed : ∀ body ∈ d.closedFrames bytes,
      ∃ q : Packet (List UInt8), q.data.length ≤ cfg.maxPacketDataLen ∧ q.body = body) :
    ∃ handled, d'.history Event.incoming? = d.history Event.incoming? ++ handled ∧
      handled.map Packet.body <+ d.closedFrames bytes := by
  induction h with
  | refl => exact ⟨[], (List.append_nil _).symm, List.nil_sublist _⟩
  | @tail m _ as bs hmoves hmove ih =>
    have hframes : d.closedFrames (as ++ bs) = d.closedFrames as ++ m.closedFrames bs := by
      rw [closedFrames, Receiver.frames_append, List.filter_append,
        ← (Moves.frame hmoves).2]
      rfl
    rw [hframes] at hclosed ⊢
    obtain ⟨handled, hhandled, hsub⟩ :=
      ih fun body hbody ↦ hclosed body (List.mem_append_left _ hbody)
    obtain ⟨more, hmore, hsub'⟩ :=
      hmove.exists_incoming fun body hbody ↦ hclosed body (List.mem_append_right _ hbody)
    refine ⟨handled ++ more, ?_, ?_⟩
    · rw [hmore, hhandled, List.append_assoc]
    · rw [List.map_append]
      exact hsub.append hsub'

end Device

end SerialPackets

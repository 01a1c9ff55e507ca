import SerialPackets.Client.Dispatch
import SerialPackets.Client.LeftAlone
import SerialPackets.Codec.Rejections

/-!
# Accounting for what arrives

Every packet that the decoder of a client reports ends in the call of one callback or in one logged
error, and every frame that the decoder does not accept has an error logged: over a whole run, the
errors about what arrives and the calls of the callbacks add up to what the bytes contain
(`accounted_of_run`). In particular nothing that arrives between two flags goes by without a call or
an error.

What is sent logs errors too, and they are of other kinds. So the account is kept by leaving the
errors about what arrives alone wherever the client sends, and by adding to them at a byte.
-/

namespace SerialPackets

open Framing

variable {cfg : Config} {H : Type*}

/-! ## Errors about what arrives -/

namespace Report

/-- The decoder has not accepted a frame. -/
def isRejection : Report → Bool
  | packetOverrun | badEscape _ | packetTooShort _ | badCrc _ _ | commandTooShort _
  | responseTooShort _ | messageTooShort _ | invalidType _ => true
  | _ => false

/-- There was nobody to call for a packet. -/
def isUndelivered : Report → Bool
  | noCommandHandler | responseWithoutId | noPendingCommand _ | responseWithoutHandler
  | noMessageHandler => true
  | _ => false

/-- The error is about what arrives. -/
def isArrival (r : Report) : Bool := r.isRejection || r.isUndelivered

private theorem isRejection_of_isUndelivered {r : Report} (h : r.isUndelivered = true) :
    r.isRejection = false := by
  cases r <;> first | rfl | exact absurd h Bool.false_ne_true

private theorem isArrival_of_isOutgoing {r : Report} (h : r.isOutgoing = true) :
    r.isArrival = false := by
  cases r <;> first | rfl | exact absurd h Bool.false_ne_true

private theorem countP_isArrival (reports : List Report) :
    reports.countP isArrival = reports.countP isRejection + reports.countP isUndelivered := by
  induction reports with
  | nil => rfl
  | cons r reports ih =>
    rw [List.countP_cons, List.countP_cons, List.countP_cons, ih, isArrival]
    by_cases hr : r.isUndelivered = true
    · rw [isRejection_of_isUndelivered hr, hr, Bool.false_or, if_pos rfl,
        if_neg Bool.false_ne_true]
      omega
    · rw [Bool.not_eq_true] at hr
      rw [hr, Bool.or_false, if_neg Bool.false_ne_true]
      omega

end Report

private theorem isRejection_of_processPacket? {load : ℕ → Option UInt8} {len : ℕ} {r : Report}
    (h : processPacket? load len = some (.error r)) : r.isRejection = true := by
  have hid {tooShort : Report} {metadata : UInt32 → UInt8 → DecodedPacketMetadata}
      (htooShort : tooShort.isRejection = true)
      (h : decodeWithCmdId? load len tooShort metadata = some (.error r)) :
      r.isRejection = true := by
    rw [decodeWithCmdId?] at h
    split at h
    · obtain rfl := ProcessOutcome.error.inj (Option.some_inj.mp h)
      exact htooShort
    · simp [Option.bind_eq_some_iff] at h
  have htype (h : decodeByType? load len = some (.error r)) : r.isRejection = true := by
    rw [decodeByType?, Option.bind_eq_bind, Option.bind_eq_some_iff] at h
    obtain ⟨packetType, -, h⟩ := h
    split at h
    · exact hid rfl h
    split at h
    · exact hid rfl h
    split at h
    · split at h
      · obtain rfl := ProcessOutcome.error.inj (Option.some_inj.mp h)
        rfl
      · simp [Option.bind_eq_some_iff] at h
    · obtain rfl := ProcessOutcome.error.inj (Option.some_inj.mp h)
      rfl
  rw [processPacket?] at h
  split at h
  · exact absurd (Option.some_inj.mp h) ProcessOutcome.noConfusion
  split at h
  · obtain rfl := ProcessOutcome.error.inj (Option.some_inj.mp h)
    rfl
  · simp only [Option.bind_eq_bind, Option.bind_eq_some_iff] at h
    obtain ⟨crcIndex, -, packetCrc, -, covered, -, h⟩ := h
    split at h
    · obtain rfl := ProcessOutcome.error.inj (Option.some_inj.mp h)
      rfl
    · exact htype h

private theorem isRejection_of_rejectionAt {s : Receiver UInt8} {b : UInt8} {r : Report}
    (h : rejectionAt cfg s b = some r) : r.isRejection = true := by
  rw [rejectionAt] at h
  split at h
  · obtain ⟨body, -, h⟩ := Option.bind_eq_some_iff.mp h
    split at h
    · rename_i hprocess
      exact Option.some_inj.mp h ▸ isRejection_of_processPacket? hprocess
    · exact absurd h (Option.some_ne_none _).symm
  split at h
  · exact Option.some_inj.mp h ▸ rfl
  split at h
  · exact Option.some_inj.mp h ▸ rfl
  · exact absurd h (Option.some_ne_none _).symm

private theorem report_byteStuffing (inp : EncodedPacketBuffer cfg) (insertPreFlag : Bool)
    (out : StuffedPacketBuffer cfg) : ∀ r ∈ (byteStuffing inp insertPreFlag out).report,
      ∃ check, r = .insufficientSpace check := by
  intro r hr
  have heq := byteStuffing?_eq inp insertPreFlag out
  simp only [byteStuffing?, Option.bind_eq_some_iff] at heq
  obtain ⟨o₁, -, o₂, -, o₃, -, heq⟩ := heq
  cases o₃ with
  | full check c =>
    rw [← Option.some_inj.mp heq] at hr
    exact ⟨check, (Option.some_inj.mp hr).symm⟩
  | done c =>
    dsimp only at heq
    split at heq
    · rw [← Option.some_inj.mp heq] at hr
      exact absurd hr (Option.not_mem_none r)
    · exact absurd heq (Option.some_ne_none _).symm

private theorem isArrival_encodePacket (e : SerialPacketsEncoder cfg)
    (p : Packet (SerialPacketsData cfg)) (insertPreFlag : Bool) (out : StuffedPacketBuffer cfg) :
    ∀ r ∈ (e.encodePacket p insertPreFlag out).report, r.isArrival = false := by
  obtain ⟨tmpData, -, heq⟩ := e.encodePacket_eq p insertPreFlag out
  rw [heq]
  intro r hr
  obtain ⟨check, rfl⟩ := report_byteStuffing tmpData insertPreFlag out r hr
  rfl

namespace Device

variable {react : ℕ → Reaction cfg H} {d d' : Device cfg H}

/-- The errors logged so far about what arrives. -/
def arrivals (d : Device cfg H) : List Report := d.reports.filter Report.isArrival

/-! ## Sending leaves them alone -/

private theorem arrivals_log {r : Report} (h : r.isArrival = false) :
    (d.log r).arrivals = d.arrivals := by
  have hr : ¬r.isArrival = true := by
    rw [h]
    exact Bool.false_ne_true
  rw [arrivals, log, List.filter_append, List.filter_cons_of_neg hr]
  exact List.append_nil _

private theorem arrivals_transmit (d : Device cfg H) (start : ℕ)
    (p : Packet (SerialPacketsData cfg)) (tx : TxAnswers) :
    (d.transmit start p tx).2.arrivals = d.arrivals := by
  have hencoded (e : SerialPacketsEncoder cfg) (preFlag : Bool) (out : StuffedPacketBuffer cfg) :
      (d.reports ++ (e.encodePacket p preFlag out).report.toList).filter Report.isArrival
        = d.arrivals := by
    rw [List.filter_append, arrivals]
    cases hreport : (e.encodePacket p preFlag out).report with
    | none => exact List.append_nil _
    | some r =>
      have hr := isArrival_encodePacket e p preFlag out r hreport
      rw [Option.toList_some, List.filter_cons_of_neg (by rw [hr]; exact Bool.false_ne_true)]
      exact List.append_nil _
  rw [transmit]
  dsimp only
  split
  · split <;> exact hencoded _ _ _
  · exact hencoded _ _ _

private theorem leftAlone_arrivals : LeftAlone fun d : Device cfg H ↦ d.arrivals where
  wait _ _ := rfl
  log _ _ hr := arrivals_log (Report.isArrival_of_isOutgoing hr)
  emit _ _ := rfl
  called _ := rfl
  tmpData _ _ := rfl
  readDecoder _ _ := rfl
  assignCmdId _ := rfl
  setUpContext _ _ _ _ _ := rfl
  clearContext _ _ := rfl
  transmit := arrivals_transmit

private theorem arrivals_afterRead (d : Device cfg H) (waitMillis count got : ℕ) :
    (d.afterRead waitMillis count got).arrivals = d.arrivals := by
  rw [afterRead]
  split
  · exact arrivals_log rfl
  · rfl

/-! ## A packet -/

/-- What is logged for a packet if there is nobody to call for it. -/
def undelivered (d : Device cfg H) : Packet (List UInt8) → Option Report
  | .command _ _ _ => if d.optionalCommandHandler.isNone then some .noCommandHandler else none
  | .response cmdId _ _ =>
    if cmdId = 0 then some .responseWithoutId
    else match d.findContextWithCmdId cmdId with
    | none => some (.noPendingCommand cmdId)
    | some slot =>
      match (d.commandContexts slot).responseHandler with
      | none => some .responseWithoutHandler
      | some _ => none
  | .message _ _ => if d.optionalMessageHandler.isNone then some .noMessageHandler else none

private theorem isUndelivered_of_undelivered {p : Packet (List UInt8)} {r : Report}
    (h : d.undelivered p = some r) : r.isUndelivered = true := by
  cases p with
  | command cmdId endpoint data =>
    rw [undelivered] at h
    split at h
    · exact Option.some_inj.mp h ▸ rfl
    · exact absurd h (Option.some_ne_none _).symm
  | response cmdId status data =>
    rw [undelivered] at h
    split at h
    · exact Option.some_inj.mp h ▸ rfl
    split at h
    · exact Option.some_inj.mp h ▸ rfl
    split at h
    · exact Option.some_inj.mp h ▸ rfl
    · exact absurd h (Option.some_ne_none _).symm
  | message endpoint data =>
    rw [undelivered] at h
    split at h
    · exact Option.some_inj.mp h ▸ rfl
    · exact absurd h (Option.some_ne_none _).symm

private theorem arrivals_log_of_undelivered {r : Report} (h : r.isUndelivered = true) :
    (d.log r).arrivals = d.arrivals ++ [r] := by
  have harrival : r.isArrival = true := by rw [Report.isArrival, h, Bool.or_true]
  rw [arrivals, log, List.filter_append, List.filter_cons_of_pos harrival]
  rfl

/-- **A packet is delivered or logged.** -/
theorem process_cases (react : ℕ → Reaction cfg H) (d : Device cfg H) {p : Packet (List UInt8)}
    (hdata : d.packetDecoder.decodedData.contents = p.data) :
    d.undelivered p = none ∧ (d.process react p).arrivals = d.arrivals ∧
        (d.process react p).history Event.incoming? = d.history Event.incoming? ++ [p] ∨
      ∃ r, d.undelivered p = some r ∧ d.process react p = d.log r := by
  cases p with
  | command cmdId endpoint data =>
    rw [process, undelivered]
    by_cases hhandler : d.optionalCommandHandler = none
    · have hnone : d.optionalCommandHandler.isNone = true := by rw [hhandler]; rfl
      refine Or.inr ⟨_, if_pos hnone, ?_⟩
      rw [processDecodedCommandPacket, if_pos hnone]
    · have hnone : ¬d.optionalCommandHandler.isNone = true := by simpa using hhandler
      refine Or.inl ⟨if_neg hnone, ?_, ?_⟩
      · exact leftAlone_arrivals.processDecodedCommandPacket react cmdId endpoint hhandler
      · have hbody : Sends (d.handlerStart cmdId endpoint).2
            ((react d.calls).actions.foldl actOnCommand (d.handlerStart cmdId endpoint)).2 :=
          sends_foldl_actOnCommand (react d.calls).actions statusOk _
        have hlogs := processDecodedCommandPacket_spec react cmdId endpoint hhandler rfl
        obtain ⟨x, htx, -⟩ := transmit_spec _ d.now _ (react d.calls).tx
        rw [hlogs.quiet.toStill.history, htx.history, history_emit,
          hbody.history Event.ignoresSends_incoming, handlerStart, history_emit, hdata]
        exact (List.append_nil _).trans (List.append_nil _)
  | response cmdId status data =>
    rw [process, undelivered, processDecodedResponsePacket]
    by_cases hid : cmdId = 0
    · exact Or.inr ⟨_, if_pos hid, if_pos hid⟩
    rw [if_neg hid, if_neg hid]
    rcases d.findContextWithCmdId cmdId with _ | slot
    · exact Or.inr ⟨_, rfl, rfl⟩
    dsimp only
    rcases (d.commandContexts slot).responseHandler with _ | handler
    · exact Or.inr ⟨_, rfl, rfl⟩
    · refine Or.inl ⟨rfl, leftAlone_arrivals.callResponseHandler react _ _ _ _ _ _ _, ?_⟩
      dsimp only
      rw [history_clearContext, (moves_callResponseHandler react slot handler cmdId status
        d.packetDecoder.decodedData.contents .response d).history Event.ignoresSends_incoming,
        history_emit, hdata]
      exact List.append_nil _
  | message endpoint data =>
    rw [process, undelivered, processDecodedMessagePacket]
    by_cases hhandler : d.optionalMessageHandler.isNone = true
    · exact Or.inr ⟨_, if_pos hhandler, if_pos hhandler⟩
    · rw [if_neg hhandler, if_neg hhandler]
      refine Or.inl ⟨rfl, leftAlone_arrivals.foldl_act _ _ _, ?_⟩
      rw [(sends_foldl_act _ _ _).history Event.ignoresSends_incoming, history_emit, hdata]
      rfl

/-! ## The account -/

/-- What is logged and delivered while bytes arrive is what they contain. -/
structure Accounts (d : Device cfg H) (bytes : List UInt8) (d' : Device cfg H) : Prop where
  receiver : d'.packetDecoder.receiver
    = Receiver.run hdlc cfg.maxPacketLen d.packetDecoder.receiver bytes
  rejected : d'.arrivals.filter Report.isRejection = d.arrivals.filter Report.isRejection
    ++ rejections cfg d.packetDecoder.receiver bytes
  delivered : (d'.history Event.incoming?).length + d'.arrivals.countP Report.isUndelivered
    = (d.history Event.incoming?).length + d.arrivals.countP Report.isUndelivered
      + (decodedPackets cfg d.packetDecoder.receiver bytes).length

private theorem accounts_of_arrivals_eq
    (hreceiver : d'.packetDecoder.receiver = d.packetDecoder.receiver)
    (harrivals : d'.arrivals = d.arrivals)
    (hhistory : d'.history Event.incoming? = d.history Event.incoming?) : Accounts d [] d' where
  receiver := hreceiver
  rejected := by rw [harrivals]; exact (List.append_nil _).symm
  delivered := by rw [harrivals, hhistory]; rfl

theorem Accounts.trans {m : Device cfg H} {as bs : List UInt8} (h : Accounts d as m)
    (h' : Accounts m bs d') : Accounts d (as ++ bs) d' where
  receiver := by rw [h'.receiver, h.receiver, Receiver.run_append]
  rejected := by
    rw [h'.rejected, h.rejected, h.receiver, rejections_append, List.append_assoc]
  delivered := by
    rw [h'.delivered, h.delivered, h.receiver, decodedPackets_append, List.length_append,
      Nat.add_assoc]

private theorem Sends.accounts (h : Sends d d') (harrivals : d'.arrivals = d.arrivals) :
    Accounts d [] d' :=
  accounts_of_arrivals_eq h.frame.2.2 harrivals (h.history Event.ignoresSends_incoming)

private theorem rejectionAt_of_reportAt {b : UInt8} {p : Packet (List UInt8)}
    (h : d.packetDecoder.reportAt b = some p) :
    rejectionAt cfg d.packetDecoder.receiver b = none := by
  rw [SerialPacketsDecoder.reportAt_eq] at h
  obtain ⟨body, hclosed, hpacket⟩ := Option.bind_eq_some_iff.mp h
  have hb : b = packetFlag := by
    by_contra hb
    rw [Receiver.closes_of_ne hb] at hclosed
    exact Option.some_ne_none body hclosed.symm
  subst hb
  rcases @closing_cases cfg _ _ hclosed with ⟨-, -, hnone⟩ | ⟨hnone, -, -⟩ | ⟨-, hnone⟩
  · exact hnone
  · exact absurd (hpacket.symm.trans hnone) (Option.some_ne_none p)
  · exact hnone

private theorem arrivals_decoded (d : Device cfg H) (b : UInt8) :
    (d.decoded b).arrivals
      = d.arrivals ++ (rejectionAt cfg d.packetDecoder.receiver b).toList := by
  rw [arrivals, arrivals, decoded]
  dsimp only
  rw [List.filter_append, SerialPacketsDecoder.report_decodeNextByte]
  rcases hr : rejectionAt cfg d.packetDecoder.receiver b with _ | r
  · rfl
  · have harrival : r.isArrival = true := by
      rw [Report.isArrival, isRejection_of_rejectionAt hr, Bool.true_or]
    rw [Option.toList_some, List.filter_cons_of_pos harrival]
    rfl

/-- **One byte.** -/
theorem accounts_decodeByte (d : Device cfg H) (b : UInt8) :
    Accounts d [b] (d.decodeByte react b) := by
  have hstill := (d.decodes_decoded b).toStill
  have hreceiver := (moves_decodeByte react d b).frame.2
  rcases hreport : d.packetDecoder.reportAt b with _ | p
  · -- no packet: what may have been logged is a frame error
    rw [decodeByte_of_reportAt_none hreport] at hreceiver ⊢
    have hpackets : decodedPackets cfg d.packetDecoder.receiver [b] = [] := by
      rw [decodedPackets_singleton, ← SerialPacketsDecoder.reportAt_eq, hreport]
      rfl
    refine ⟨hreceiver, ?_, ?_⟩
    · rw [arrivals_decoded, List.filter_append, rejections_singleton]
      rcases hr : rejectionAt cfg d.packetDecoder.receiver b with _ | r
      · rfl
      · rw [Option.toList_some, List.filter_cons_of_pos (isRejection_of_rejectionAt hr)]
        rfl
    · rw [arrivals_decoded, List.countP_append, hstill.history, hpackets]
      rcases hr : rejectionAt cfg d.packetDecoder.receiver b with _ | r
      · rfl
      · have hrejection := isRejection_of_rejectionAt hr
        have hdelivered : ¬r.isUndelivered = true := fun h ↦
          Bool.false_ne_true ((Report.isRejection_of_isUndelivered h).symm.trans hrejection)
        rw [Option.toList_some, List.countP_cons_of_neg hdelivered]
        rfl
  · obtain ⟨hdata, hprocess⟩ := decodeByte_of_reportAt react hreport
    have hnone := rejectionAt_of_reportAt hreport
    have hpackets : decodedPackets cfg d.packetDecoder.receiver [b] = [p] := by
      rw [decodedPackets_singleton, ← SerialPacketsDecoder.reportAt_eq, hreport]
      rfl
    have harrivals : (d.decoded b).arrivals = d.arrivals := by
      rw [arrivals_decoded, hnone]
      exact List.append_nil _
    rw [hprocess] at hreceiver ⊢
    -- a packet: it is handed over, or an error is logged that is not about frames
    rcases process_cases react (d.decoded b) hdata with
      ⟨-, hsame, hcalled⟩ | ⟨r, hr, hlogged⟩
    · refine ⟨hreceiver, ?_, ?_⟩
      · rw [hsame, harrivals, rejections_singleton, hnone]
        exact (List.append_nil _).symm
      · rw [hsame, harrivals, hcalled, hstill.history, hpackets, List.length_append]
        exact Nat.add_right_comm _ _ _
    · have hundelivered := isUndelivered_of_undelivered hr
      rw [hlogged] at hreceiver ⊢
      refine ⟨hreceiver, ?_, ?_⟩
      · rw [arrivals_log_of_undelivered hundelivered, harrivals, List.filter_append,
          List.filter_cons_of_neg
            (by rw [Report.isRejection_of_isUndelivered hundelivered]; exact Bool.false_ne_true),
          rejections_singleton, hnone]
        rfl
      · have hhistory : ((d.decoded b).log r).history Event.incoming?
            = d.history Event.incoming? := hstill.history Event.incoming?
        rw [arrivals_log_of_undelivered hundelivered, harrivals, List.countP_append, hhistory,
          hpackets, List.countP_cons_of_pos hundelivered]
        rfl

private theorem accounts_of_passes {bytes : List UInt8} (h : Passes react d bytes d') :
    Accounts d bytes d' := by
  induction h with
  | refl => exact accounts_of_arrivals_eq rfl rfl rfl
  | @tail m _ _ _ _ hstep ih =>
    cases hstep with
    | read waitMillis count got =>
      have hquiet := m.quiet_afterRead waitMillis count got
      exact ih.trans (accounts_of_arrivals_eq hquiet.receiver (arrivals_afterRead _ _ _ _)
        (hquiet.toStill.history _))
    | byte b => exact ih.trans (accounts_decodeByte _ b)

private theorem accounts_cleanupSlot (d : Device cfg H) (millisNow : UInt32)
    (slot : Fin cfg.maxPendingCommands) : Accounts d [] (d.cleanupSlot react millisNow slot) := by
  refine accounts_of_arrivals_eq (moves_cleanupSlot react millisNow d slot).frame.2
    (leftAlone_arrivals.cleanupSlot react d millisNow slot) ?_
  rw [cleanupSlot]
  split
  · rfl
  split
  · rfl
  · dsimp only
    rw [history_clearContext]
    refine (List.append_nil _).trans ?_
    rcases (d.commandContexts slot).responseHandler with _ | handler
    · rfl
    · dsimp only
      rw [(moves_callResponseHandler react slot handler _ _ _ .cleanup _).history
        Event.ignoresSends_incoming, history_emit]
      exact List.append_nil _

private theorem accounts_loopCleanup (react : ℕ → Reaction cfg H) (d : Device cfg H)
    (resetMillis sweepMillis : ℕ) :
    Accounts d [] (d.loopCleanup react resetMillis sweepMillis) := by
  have hsweep (millisNow : UInt32) (slots : List (Fin cfg.maxPendingCommands))
      (d : Device cfg H) : Accounts d [] (slots.foldl (cleanupSlot react millisNow) d) := by
    induction slots generalizing d with
    | nil => exact accounts_of_arrivals_eq rfl rfl rfl
    | cons slot slots ih => exact (d.accounts_cleanupSlot millisNow slot).trans (ih _)
  rw [loopCleanup]
  split
  · exact accounts_of_arrivals_eq rfl rfl rfl
  · let m : Device cfg H :=
      { d.wait resetMillis with cleanupTimer := .reset (d.wait resetMillis).now }.wait sweepMillis
    have hwait : Accounts d [] m := accounts_of_arrivals_eq rfl rfl rfl
    exact hwait.trans (hsweep (millis m.now) (List.finRange cfg.maxPendingCommands) m)

/-- **One operation**, with the testing hook off. -/
theorem accounts_step {op : Op cfg H} (hignore : d.ignoreRxForTesting = false)
    (h : step react d op = some d') : Accounts d (op.bytes false d.begun) d' := by
  cases op with
  | begin =>
    obtain rfl := Option.some_inj.mp h
    by_cases hbegun : d.begun = true
    · rw [Device.begin, if_pos hbegun]
      exact accounts_of_arrivals_eq rfl (arrivals_log rfl) rfl
    · rw [begin_of_not_begun (Bool.not_eq_true _ ▸ hbegun)]
      exact accounts_of_arrivals_eq rfl rfl ((history_emit _ _ _).trans (List.append_nil _))
  | sendCommand endpoint data responseHandler timeoutMillis tx =>
    exact Option.some_inj.mp h ▸
      (d.sends_sendCommand endpoint data responseHandler timeoutMillis tx).accounts
        (leftAlone_arrivals.sendCommand d endpoint data responseHandler timeoutMillis tx)
  | sendMessage endpoint data tx =>
    exact Option.some_inj.mp h ▸
      (d.sends_sendMessage endpoint data tx).accounts
        (leftAlone_arrivals.sendMessage d endpoint data tx)
  | delay millis => exact Option.some_inj.mp h ▸ accounts_of_arrivals_eq rfl rfl rfl
  | loop input =>
    change d.loop react input = some d' at h
    rw [Op.bytes, Bool.or_false]
    by_cases hbegun : d.begun = true
    · rw [loop_of_begun react hbegun, Option.map_eq_some_iff] at h
      obtain ⟨d₁, hrx, rfl⟩ := h
      rw [hbegun, Bool.not_true, if_neg Bool.false_ne_true]
      have hread := accounts_of_passes (passes_loopRx? react hignore hrx)
      have hall := hread.trans
        (accounts_loopCleanup react d₁ input.resetMillis input.sweepMillis)
      rwa [List.append_nil] at hall
    · rw [Bool.not_eq_true] at hbegun
      rw [loop, if_pos hbegun, Option.some_inj] at h
      rw [hbegun, Bool.not_false, if_pos rfl, ← h]
      exact accounts_of_arrivals_eq rfl rfl rfl

/-- **Every run keeps the account**, with the testing hook off. -/
theorem accounts_run {ops : List (Op cfg H)} (hignore : d.ignoreRxForTesting = false)
    (h : Runs.run (step react) d ops = some d') : Accounts d (received false d.begun ops) d' := by
  induction ops generalizing d with
  | nil =>
    rw [Runs.run_nil, Option.some_inj] at h
    exact h ▸ accounts_of_arrivals_eq rfl rfl rfl
  | cons op ops ih =>
    obtain ⟨m, hm, hrest⟩ := Runs.run_cons_eq_some.mp h
    obtain ⟨bytes, hmoves⟩ := moves_step react hm
    have hops := ih (hmoves.frame.1.trans hignore) hrest
    rw [begun_step hm] at hops
    exact (accounts_step hignore hm).trans hops

/-- **Nothing that arrives is lost without a word.** In every run of a client, from its construction
on, the errors logged about frames are those of the bytes that the run has passed to the decoder,
and the calls of the callbacks for packets together with the errors about packets that there was
nobody to call for are as many as the packets in these bytes. So all segments between two flags,
other than empty ones and lone escapes, are accounted for by a call or an error. -/
theorem accounted_of_run (react : ℕ → Reaction cfg H) (ops : List (Op cfg H)) {d₀ : Device cfg H}
    (hfresh : IsFresh d₀) (hreports : d₀.reports = [])
    (hrun : Runs.run (step react) d₀ ops = some d) :
    d.reports.filter Report.isRejection
        = rejections cfg .dropped (received false false ops) ∧
      (d.history Event.incoming?).length + d.reports.countP Report.isUndelivered
        = (decodedPackets cfg .dropped (received false false ops)).length ∧
      ∀ (noise : List UInt8) (segments : List (List UInt8)) (rest : List UInt8),
        received false false ops
            = noise ++ packetFlag :: segments.flatMap (· ++ [packetFlag]) ++ rest →
        (∀ segment ∈ segments, packetFlag ∉ segment) →
          (segments.filter fun segment ↦ IsFrame segment).length
            ≤ (d.history Event.incoming?).length + d.reports.countP Report.isArrival := by
  have haccounts := accounts_run hfresh.notIgnoring hrun
  rw [hfresh.notBegun] at haccounts
  obtain ⟨-, hrejected, hdelivered⟩ := haccounts
  have hnone : d₀.arrivals = [] := by rw [arrivals, hreports, List.filter_nil]
  have hcalls : d₀.history Event.incoming? = [] := by
    rw [history, hfresh.trace, List.filterMap_nil]
  rw [hfresh.waiting, hnone, List.filter_nil, List.nil_append] at hrejected
  rw [hfresh.waiting, hnone, hcalls, List.countP_nil, List.length_nil, Nat.zero_add] at hdelivered
  have hrejection : d.arrivals.filter Report.isRejection = d.reports.filter Report.isRejection := by
    rw [arrivals, List.filter_filter]
    refine List.filter_congr fun r _ ↦ ?_
    rw [Report.isArrival]
    cases r.isRejection <;> rfl
  have hundelivered : d.arrivals.countP Report.isUndelivered
      = d.reports.countP Report.isUndelivered := by
    rw [arrivals, List.countP_filter]
    refine List.countP_congr fun r _ ↦ ?_
    rw [Report.isArrival]
    cases r.isUndelivered <;> simp
  rw [hrejection] at hrejected
  rw [hundelivered] at hdelivered
  refine ⟨hrejected, hdelivered, fun noise segments rest hbytes hfree ↦ ?_⟩
  -- up to the last flag of the segments the bytes are those of the frames
  have hopened (bytes : List UInt8) :
      Receiver.run hdlc cfg.maxPacketLen .dropped (bytes ++ [packetFlag]) = .opened :=
    Receiver.run_concat_flag (S := hdlc) _ bytes
  have hle := @length_filter_isFrame_le cfg segments hfree
  have hstream : received false false ops
      = (noise ++ [packetFlag]) ++ (segments.flatMap (· ++ [packetFlag]) ++ rest) := by
    rw [hbytes]
    simp
  have hpackets : (decodedPackets cfg .opened (segments.flatMap (· ++ [packetFlag]))).length
      ≤ (decodedPackets cfg .dropped (received false false ops)).length := by
    rw [hstream, decodedPackets_append _ (noise ++ [packetFlag]), hopened,
      decodedPackets_append .opened, List.length_append, List.length_append]
    omega
  have herrors : (rejections cfg .opened (segments.flatMap (· ++ [packetFlag]))).length
      ≤ d.reports.countP Report.isRejection := by
    rw [List.countP_eq_length_filter, hrejected, hstream,
      rejections_append _ (noise ++ [packetFlag]), hopened, rejections_append .opened,
      List.length_append, List.length_append]
    omega
  have hsplit := Report.countP_isArrival d.reports
  omega

/-- A message, a command that nobody handles, and a frame with a wrong byte after an escape. -/
theorem accounted_of_run_threeFrames :
    let bytes := wires [(true, .message 1 [7]), (false, .command 5 2 [])]
      ++ [2, packetEsc, 7, packetFlag]
    let ops : List (Op Config.default Unit) :=
      [.begin, .loop ⟨bytes.length, [⟨0, bytes⟩], 0, 0⟩]
    ∃ d, Runs.run (step idle) (create none (some ()) 0) ops = some d ∧
      (d.reports.filter Report.isRejection).length = 1 ∧
      (d.history Event.incoming?).length + d.reports.countP Report.isUndelivered = 2 := by
  intro bytes ops
  have hsome : (Runs.run (step idle) (create none (some ()) 0) ops).isSome := by decide +kernel
  have hrun := (Option.some_get hsome).symm
  obtain ⟨hrejected, hdelivered, -⟩ :=
    accounted_of_run idle ops (isFresh_create none (some ()) 0) rfl hrun
  refine ⟨_, hrun, ?_, ?_⟩
  · rw [hrejected]
    decide +kernel
  · rw [hdelivered]
    decide +kernel

end Device

end SerialPackets

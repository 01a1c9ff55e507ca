import SerialPackets.Client.Moves
import SerialPackets.Client.SendResults

/-!
# Pre-packet flags

When the line has been silent, or the last packet was cut, the next packet must start with a flag of
its own. The client keeps track of this with a timer that `check_pre_flag` reads and resets before
the packet is encoded and before the stream is asked for room. An attempt that fails after that has
used up the flag.

`flagLaw_iff` says exactly when this does harm: a packet that needs a flag lacks it if and only if
the attempt just before it failed and its reset of the timer is at most
`PRE_FLAG_TIMEOUT_MILLIS` old. The law and the condition are both about the history of the line,
which is the events `begin` and the attempts to send.
-/

namespace SerialPackets

open Runs

variable {cfg : Config} {H : Type*}

/-! ## The history of the line -/

/-- What happens on the line. -/
inductive LineEvent
  | begun (time : ℕ)
  | sent (x : Transmission)

namespace LineEvent

/-- The event makes the next packet start with a flag. -/
def IsForcing : LineEvent → Prop
  | begun _ => True
  | sent x => x.outcome.IsShort

instance : DecidablePred IsForcing
  | begun _ => inferInstanceAs (Decidable True)
  | sent x => inferInstanceAs (Decidable x.outcome.IsShort)

/-- When the event last set the timer. -/
def timerSet : LineEvent → ℕ
  | begun time => time
  | sent x => if x.outcome.IsShort then x.finish else x.reset

/-- The pre-flag timer after an event. -/
def timer (e : LineEvent) : SerialPacketsTimer :=
  if e.IsForcing then .set e.timerSet (UInt32.ofNat (preFlagTimeoutMillis + 1))
  else .reset e.timerSet

/-- When the event was over. -/
def finish : LineEvent → ℕ
  | begun time => time
  | sent x => x.finish

/-- The event is a call of `begin` or of `write`. -/
def IsMark : LineEvent → Prop
  | begun _ => True
  | sent x => ¬x.outcome.IsFailed

instance : DecidablePred IsMark
  | begun _ => inferInstanceAs (Decidable True)
  | sent x => inferInstanceAs (Decidable ¬x.outcome.IsFailed)

@[simp] theorem isMark_begun (time : ℕ) : (begun time).IsMark := trivial

@[simp] theorem isMark_sent_iff (x : Transmission) :
    (sent x).IsMark ↔ ¬x.outcome.IsFailed := Iff.rfl

/-- The timer, if it is read in time, asks for a flag exactly when the event forced one or more than
`PRE_FLAG_TIMEOUT_MILLIS` have passed. -/
private theorem timer_due_iff {e : LineEvent} {now : ℕ} (hset : e.timerSet ≤ now)
    (hgap : now < e.timerSet + (2 ^ 32 - 1001)) :
    (e.timer.elapsedMillis now).toNat > preFlagTimeoutMillis ↔
      e.IsForcing ∨ e.timerSet + preFlagTimeoutMillis < now := by
  rw [timer, preFlagTimeoutMillis]
  split
  · rename_i hforcing
    rw [SerialPacketsTimer.toNat_elapsedMillis_set _ hset, Nat.mod_eq_of_lt (by omega)]
    exact iff_of_true (by omega) (Or.inl hforcing)
  · rename_i hforcing
    rw [SerialPacketsTimer.toNat_elapsedMillis_reset hset, Nat.mod_eq_of_lt (by omega),
      or_iff_right hforcing]
    omega

end LineEvent

/-- The part of an event that shows on the line. -/
def Event.line? : Event cfg H → Option LineEvent
  | .begun time => some (.begun time)
  | .transmitted x => some (.sent x)
  | _ => none

/-- The history of the line. -/
def Device.line (d : Device cfg H) : List LineEvent := d.trace.filterMap Event.line?

/-- A packet sent after this history needs a flag: it is the first one after `begin` or after a
short write, or the sending call starts more than `PRE_FLAG_TIMEOUT_MILLIS` after the last write. -/
def NeedsFlag (history : List LineEvent) (x : Transmission) : Prop :=
  match (history.filter fun e ↦ e.IsMark).getLast? with
  | none => False
  | some (.begun _) => True
  | some (.sent w) => w.outcome.IsShort ∨ w.finish + preFlagTimeoutMillis < x.start

/-- **The law**: a packet that needs a flag, if any of its bytes is written, starts with one. -/
def FlagLaw (history : List LineEvent) : LineEvent → Prop
  | .begun _ => True
  | .sent x => NeedsFlag history x → x.bytes ≠ [] → x.bytes.head? = some packetFlag

/-- No attempt just before a packet that needs a flag has failed, unless its reset of the timer is
more than `PRE_FLAG_TIMEOUT_MILLIS` old when the timer is read. -/
def NoFailureBefore (history : List LineEvent) : LineEvent → Prop
  | .begun _ => True
  | .sent x => NeedsFlag history x → x.bytes ≠ [] → ∀ y, history.getLast? = some (.sent y) →
      y.outcome.IsFailed → y.reset + preFlagTimeoutMillis < x.checked

/-- The timer is read less than one turn of the clock after it was set. -/
def ShortGap (history : List LineEvent) : LineEvent → Prop
  | .begun _ => True
  | .sent x => ∀ e, history.getLast? = some e → x.checked < e.timerSet + (2 ^ 32 - 1001)

/-! ## What the client does -/

/-- The flag of an attempt is what the timer says, and time goes on. -/
def Flagged (history : List LineEvent) : LineEvent → Prop
  | .begun _ => True
  | .sent x => x.start ≤ x.checked ∧ (∃ k, x.bytes = (Packet.wire x.preFlag x.packet).take k) ∧
      ∀ e, history.getLast? = some e → e.timerSet ≤ e.finish ∧ e.finish ≤ x.checked ∧
        x.preFlag = decide ((e.timer.elapsedMillis x.checked).toNat > preFlagTimeoutMillis)

private theorem head?_bytes_iff {x : Transmission} {k : ℕ}
    (hbytes : x.bytes = (Packet.wire x.preFlag x.packet).take k) (hne : x.bytes ≠ []) :
    x.bytes.head? = some packetFlag ↔ x.preFlag = true := by
  have hk : k ≠ 0 := by
    rintro rfl
    exact hne hbytes
  rw [hbytes, List.head?_take, if_neg hk, Packet.head?_wire]

/-- **The law, event by event**: the flag is there unless the attempt just before failed. -/
theorem flagLaw_iff_noFailureBefore {history : List LineEvent} {e : LineEvent}
    (hflag : Flagged history e) (hgap : ShortGap history e) :
    FlagLaw history e ↔ NoFailureBefore history e := by
  cases e with
  | begun time => exact Iff.rfl
  | sent x =>
    obtain ⟨hstart, ⟨k, hbytes⟩, hlast⟩ := hflag
    refine forall_congr' fun hneeds ↦ forall_congr' fun hne ↦ ?_
    rw [head?_bytes_iff hbytes hne]
    rcases List.eq_nil_or_concat history with rfl | ⟨history, e, rfl⟩
    · exact False.elim hneeds
    · rw [List.concat_eq_append] at hgap hlast hneeds ⊢
      have he : (history ++ [e]).getLast? = some e := List.getLast?_concat
      obtain ⟨hset, hover, hdue⟩ := hlast e he
      have hgap' := hgap e he
      rw [hdue, decide_eq_true_iff, LineEvent.timer_due_iff (hset.trans hover) hgap', he]
      cases e with
      | begun time => exact iff_of_true (Or.inl trivial) fun y hy ↦ absurd hy (by simp)
      | sent y =>
        by_cases hshort : y.outcome.IsShort
        · refine iff_of_true (Or.inl hshort) ?_
          rintro _ ⟨rfl⟩ hfailed
          exact absurd hfailed (TxOutcome.not_isFailed_of_isShort hshort)
        rw [LineEvent.timerSet, if_neg hshort] at hset ⊢
        rw [LineEvent.IsForcing, or_iff_right hshort]
        by_cases hfailed : y.outcome.IsFailed
        · refine ⟨?_, fun h ↦ h y rfl hfailed⟩
          rintro h _ ⟨rfl⟩ -
          exact h
        · -- a complete write: the flag is needed because it is long ago
          rw [NeedsFlag, List.filter_append, List.filter_singleton,
            decide_eq_true ((LineEvent.isMark_sent_iff y).mpr hfailed), cond_true,
            List.getLast?_concat] at hneeds
          have hago := hneeds.resolve_left hshort
          refine iff_of_true ?_ ?_
          · rw [LineEvent.finish] at hset
            omega
          · rintro _ ⟨rfl⟩ hfailed'
            exact absurd hfailed' hfailed

/-! ## Runs -/

namespace Device

/-- The history of the line so far is as the timer had it, and the timer is as the last event left
it. -/
structure LineOk (d : Device cfg H) : Prop where
  flagged : Each Flagged d.line
  timer : ∀ e, d.line.getLast? = some e → d.preFlagTimer = e.timer
  timerSet_le : ∀ e, d.line.getLast? = some e → e.timerSet ≤ e.finish
  finish_le : ∀ e, d.line.getLast? = some e → e.finish ≤ d.now

variable {d d' : Device cfg H}

/-- The line and the timer are as before. -/
structure LineStill (d d' : Device cfg H) : Prop where
  line : d'.line = d.line
  timer : d'.preFlagTimer = d.preFlagTimer
  now_le : d.now ≤ d'.now

private theorem LineOk.of_still (hd : LineOk d) (h : LineStill d d') : LineOk d' := by
  refine ⟨?_, ?_, ?_, ?_⟩
  · rw [h.line]
    exact hd.flagged
  · rw [h.line, h.timer]
    exact hd.timer
  · rw [h.line]
    exact hd.timerSet_le
  · intro e he
    rw [h.line] at he
    exact (hd.finish_le e he).trans h.now_le

theorem Still.lineStill (h : Still d d') : LineStill d d' :=
  ⟨by rw [line, line, h.trace], h.timer, h.now_le⟩

private theorem lineStill_of_trace {e : Event cfg H} (he : e.line? = none)
    (htrace : d'.trace = d.trace ++ [e]) (htimer : d'.preFlagTimer = d.preFlagTimer)
    (hnow : d.now ≤ d'.now) : LineStill d d' := by
  refine ⟨?_, htimer, hnow⟩
  rw [line, htrace, List.filterMap_append, List.filterMap_cons_none he, List.filterMap_nil,
    List.append_nil]
  rfl

theorem line_of_trace {e : Event cfg H} {l : LineEvent} (he : e.line? = some l)
    (htrace : d'.trace = d.trace ++ [e]) : d'.line = d.line ++ [l] := by
  rw [line, htrace, List.filterMap_append, List.filterMap_cons_some he, List.filterMap_nil]
  rfl

/-- **An attempt to send** is flagged as the timer says, and leaves its own mark on the timer. -/
theorem Transmits.lineOk {start : ℕ} {p : Packet (List UInt8)} {tx : TxAnswers} {x : Transmission}
    (h : Transmits d d' start p tx x) (hstart : start ≤ d.now) (hd : LineOk d) : LineOk d' := by
  have hline := line_of_trace (l := .sent x) rfl h.trace
  have hlast : d'.line.getLast? = some (.sent x) := by rw [hline, List.getLast?_concat]
  have hnow : d.now ≤ x.checked := by
    rw [h.checked]
    exact Nat.le_add_right _ _
  refine ⟨?_, ?_, ?_, ?_⟩
  · rw [hline, each_concat]
    refine ⟨hd.flagged, ?_, ⟨x.outcome.written, ?_⟩, ?_⟩
    · rw [h.started]
      exact hstart.trans hnow
    · rw [h.bytes, h.packet]
    · intro e he
      refine ⟨hd.timerSet_le e he, (hd.finish_le e he).trans hnow, ?_⟩
      rw [h.preFlag, preFlagDue, hd.timer e he]
  · intro e he
    obtain rfl := Option.some_inj.mp (hlast.symm.trans he)
    rw [h.timer, LineEvent.timer, LineEvent.timerSet]
    split
    · exact (if_pos ‹_›).symm
    · exact (if_neg ‹_›).symm
  · intro e he
    obtain rfl := Option.some_inj.mp (hlast.symm.trans he)
    rw [LineEvent.timerSet]
    split
    · exact le_refl _
    · exact h.reset_le
  · intro e he
    obtain rfl := Option.some_inj.mp (hlast.symm.trans he)
    exact h.now.ge

private theorem LineOk.emit (hd : LineOk d) (e : Event cfg H) (he : e.line? = none) :
    LineOk (d.emit e) :=
  hd.of_still (lineStill_of_trace he rfl rfl (le_refl _))

private theorem LineOk.clearContext (hd : LineOk d) (slot : Fin cfg.maxPendingCommands) :
    LineOk (d.clearContext slot) :=
  hd.of_still (lineStill_of_trace (e := .released slot) rfl rfl rfl (le_refl _))

private theorem LineOk.assignCmdId (hd : LineOk d) : LineOk d.assignCmdId :=
  hd.of_still (lineStill_of_trace (e := .idAssigned (nextCmdId d.cmdIdCounter)) rfl rfl rfl
    (le_refl _))

private theorem LineOk.setUpContext (hd : LineOk d) (slot : Fin cfg.maxPendingCommands)
    (cmdId : UInt32) (handler : H) (timeoutMillis : UInt16) :
    LineOk (d.setUpContext slot cmdId handler timeoutMillis) :=
  hd.of_still (lineStill_of_trace (e := .accepted slot cmdId handler) rfl rfl rfl (le_refl _))

private theorem Send.lineOk (h : Send d d') (hd : LineOk d) : LineOk d' := by
  cases h with
  | quiet h => exact hd.of_still h.toStill.lineStill
  | message h => exact h.lineOk (le_refl _) hd
  | command h _ => exact h.lineOk (le_refl _) hd.assignCmdId
  | acceptedCommand h _ _ => exact (h.lineOk (le_refl _) hd.assignCmdId).setUpContext _ _ _ _

private theorem LineOk.begin (hd : LineOk d) (h : d.begun = false) : LineOk d.begin := by
  have hbegin := begin_of_not_begun h
  have hline : d.begin.line = d.line ++ [.begun d.now] := by
    rw [hbegin]
    exact line_of_trace (e := .begun d.now) rfl rfl
  have hlast : d.begin.line.getLast? = some (.begun d.now) := by rw [hline, List.getLast?_concat]
  refine ⟨?_, ?_, ?_, ?_⟩
  · rw [hline, each_concat]
    exact ⟨hd.flagged, trivial⟩
  · intro e he
    obtain rfl := Option.some_inj.mp (hlast.symm.trans he)
    rw [hbegin]
    exact (if_pos trivial).symm
  · intro e he
    obtain rfl := Option.some_inj.mp (hlast.symm.trans he)
    exact le_refl _
  · intro e he
    obtain rfl := Option.some_inj.mp (hlast.symm.trans he)
    rw [hbegin]
    exact le_refl _

/-- **Every move keeps the history of the line in order.** -/
theorem kept_lineOk : Kept (LineOk : Device cfg H → Prop) where
  send := Send.lineOk
  still hstill hd := hd.of_still hstill.lineStill
  begin hbegun hd := hd.begin hbegun
  call hcall hd := by
    refine hd.emit _ ?_
    rcases hcall with _ | _ | _ | _ | _ <;> rfl
  respond hstart hresponse hd := hresponse.lineOk hstart hd
  clear slot hd := hd.clearContext slot

theorem IsFresh.lineOk (h : IsFresh d) : LineOk d := by
  have hline : d.line = [] := by rw [line, h.trace, List.filterMap_nil]
  refine ⟨by rw [hline]; exact each_nil, ?_, ?_, ?_⟩
  all_goals
    intro e he
    rw [hline] at he
    exact absurd he (by simp)

variable (react : ℕ → Reaction cfg H)

/-- **When pre flags are lost.** In every run of a client whose pre-flag timer is read in time,
every packet that needs a flag starts with one if and only if no packet that needs one is sent while
the timer still counts from an attempt that failed. -/
theorem flagLaw_iff {d₀ d : Device cfg H} (ops : List (Op cfg H)) (hfresh : IsFresh d₀)
    (hrun : run (step react) d₀ ops = some d) (hgaps : Each ShortGap d.line) :
    Each FlagLaw d.line ↔ Each NoFailureBefore d.line := by
  obtain ⟨bytes, hmoves⟩ := moves_run react hrun
  have hok := kept_lineOk.moves hmoves hfresh.lineOk
  exact (hok.flagged.and hgaps).congr fun pre e h ↦ flagLaw_iff_noFailureBefore h.1 h.2

/-! ## Two runs -/

private theorem exists_line_sendMessage {d : Device cfg H} (hbegun : d.begun = true)
    (endpoint : UInt8) (data : SerialPacketsData cfg) (tx : TxAnswers) :
    ∃ x, (d.sendMessage endpoint data tx).2.line = d.line ++ [.sent x] ∧
      (d.sendMessage endpoint data tx).2.sent = d.sent ++ x.bytes ∧
      x.checked = d.now + tx.flushMillis ∧
      x.outcome = d.outcomeOf (.message endpoint data.contents) tx := by
  rcases d.sendMessage_cases endpoint data tx with ⟨hbegun', -⟩ |
    ⟨-, d₁, x, -, htx, hlogs, -⟩
  · exact absurd (hbegun'.symm.trans hbegun) Bool.false_ne_true
  · have hquiet := hlogs.quiet
    refine ⟨x, ?_, hquiet.sent.trans htx.sent, htx.checked, htx.outcome_eq⟩
    rw [hquiet.toStill.lineStill.line, line_of_trace (l := .sent x) rfl htx.trace]

private theorem line_begunClient : begunClient.line = [.begun 0] := rfl

/-- The stream has no room for a first message and accepts a second one, all within a millisecond:
the second message needs a flag and has none. -/
theorem not_flagLaw_begunClient :
    ∃ d, run (step idle) (create none none 0 : Device Config.default Unit)
        [.begin, .sendMessage 0 noBytes ⟨0, 0, 0, 0, 0⟩, .sendMessage 0 noBytes ⟨0, 0, 100, 100, 0⟩]
        = some d ∧
      Each ShortGap d.line ∧ ¬Each FlagLaw d.line := by
  obtain ⟨x, hx, -, hxchecked, hxoutcome⟩ :=
    exists_line_sendMessage (d := begunClient) rfl 0 noBytes ⟨0, 0, 0, 0, 0⟩
  set d₁ := (begunClient.sendMessage 0 noBytes ⟨0, 0, 0, 0, 0⟩).2 with hd₁
  obtain ⟨y, hy, hysent, hychecked, -⟩ :=
    exists_line_sendMessage (d := d₁) rfl 0 noBytes ⟨0, 0, 100, 100, 0⟩
  set d₂ := (d₁.sendMessage 0 noBytes ⟨0, 0, 100, 100, 0⟩).2 with hd₂
  -- the first attempt finds no room for its packet, the second is sent, without a flag
  have hfailed : x.outcome.IsFailed := by
    rw [hxoutcome]
    decide +kernel
  have hnow : d₁.now = 0 := by decide +kernel
  have hsent : d₁.sent ++ y.bytes = [3, 0, 72, 92, 126] := by
    rw [← hysent]
    decide +kernel
  have hsent₁ : d₁.sent = [] := by decide +kernel
  rw [hsent₁, List.nil_append] at hsent
  rw [line_begunClient] at hx
  refine ⟨d₂, rfl, ?_, ?_⟩
  · rw [hy, hx, each_concat, ← List.nil_append [LineEvent.begun 0], each_concat, each_concat]
    refine ⟨⟨⟨each_nil, trivial⟩, ?_⟩, ?_⟩
    · intro e _
      rw [hxchecked]
      exact Nat.lt_add_left _ (by decide)
    · intro e _
      rw [hychecked, hnow]
      exact Nat.lt_add_left _ (by decide)
  · rw [hy, each_concat, hx]
    rintro ⟨-, hlaw⟩
    have hneeds : NeedsFlag ([.begun 0] ++ [.sent x]) y := by
      have hmarks : ([.begun 0] ++ [.sent x] : List LineEvent).filter (fun e ↦ e.IsMark)
          = [.begun 0] := by
        simp [hfailed]
      rw [NeedsFlag, hmarks]
      trivial
    have hhead := hlaw hneeds (by rw [hsent]; exact List.cons_ne_nil _ _)
    rw [hsent] at hhead
    exact absurd hhead (by decide)

/-- A first message that fits is sent with its flag. -/
theorem flagLaw_firstMessage :
    ∃ d, run (step idle) (create none none 0 : Device Config.default Unit)
        [.begin, .sendMessage 0 noBytes ⟨0, 0, 100, 100, 0⟩] = some d ∧ Each FlagLaw d.line := by
  obtain ⟨x, hx, -, hchecked, -⟩ :=
    exists_line_sendMessage (d := begunClient) rfl 0 noBytes ⟨0, 0, 100, 100, 0⟩
  rw [line_begunClient] at hx
  refine ⟨_, rfl, (flagLaw_iff idle [.begin, .sendMessage 0 noBytes ⟨0, 0, 100, 100, 0⟩]
    (isFresh_create none none 0) rfl ?_).mpr ?_⟩
  · change Each ShortGap (begunClient.sendMessage 0 noBytes ⟨0, 0, 100, 100, 0⟩).2.line
    rw [hx, each_concat, ← List.nil_append [LineEvent.begun 0], each_concat]
    refine ⟨⟨each_nil, trivial⟩, ?_⟩
    intro e _
    rw [hchecked]
    exact Nat.lt_add_left _ (by decide)
  · change Each NoFailureBefore (begunClient.sendMessage 0 noBytes ⟨0, 0, 100, 100, 0⟩).2.line
    rw [hx, each_concat, ← List.nil_append [LineEvent.begun 0], each_concat]
    refine ⟨⟨each_nil, trivial⟩, ?_⟩
    intro _ _ y hy
    exact absurd hy (by simp)

end Device

end SerialPackets

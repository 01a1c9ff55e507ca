import SerialPackets.Client.Completion
import SerialPackets.Client.PreFlag
import SerialPackets.Codec.Damage

/-!
# Short writes

A stream that accepts only part of a packet leaves a fragment on the line. The client forces a flag
in front of the next packet, which closes the fragment at the receiver, so that only the packet that
was cut is lost: what has been written completely is received, in order, whatever has been cut in
between (`requests_of_shortWrites`). A fragment can at worst be taken for one packet that nobody has
sent.

The flag is forced by the pre-flag timer, which an attempt that fails uses up, and which wraps. The
results are therefore about runs in which no packet that needs a flag comes right after a failed
attempt and the timer is read in time, which is when the law of the pre-flags holds.
-/

namespace SerialPackets

open Framing
open scoped List

variable {cfg : Config} {H : Type*}

/-! ## Fragments -/

/-- What a flag would make of the bytes before it. -/
def closing (cfg : Config) (s : Receiver UInt8) : List (Packet (List UInt8)) :=
  decodedPackets cfg s [packetFlag]

private theorem length_closing_le (s : Receiver UInt8) : (closing cfg s).length ≤ 1 :=
  length_decodedPackets_le_count s [packetFlag]

private theorem closing_opened : closing cfg .opened = [] := by
  rw [closing, decodedPackets_singleton, ← hdlc_flag, Receiver.closes_opened_flag,
    Option.bind_some, packetOf_nil]
  rfl

private theorem closing_dropped : closing cfg .dropped = [] := by
  rw [closing, decodedPackets_singleton, Receiver.closes, if_neg (by simp [Receiver.dropped])]
  rfl

private theorem decodedPackets_flag_cons (s : Receiver UInt8) (bytes : List UInt8) :
    decodedPackets cfg s (packetFlag :: bytes)
      = closing cfg s ++ decodedPackets cfg .opened bytes := by
  have hopened : Receiver.run hdlc cfg.maxPacketLen s [packetFlag] = .opened :=
    Receiver.run_concat_flag (S := hdlc) s []
  rw [← List.singleton_append, decodedPackets_append, hopened, closing]

private theorem decodedPackets_wire_true (s : Receiver UInt8) {p : Packet (List UInt8)}
    (hdata : p.data.length ≤ cfg.maxPacketDataLen) :
    decodedPackets cfg s (Packet.wire true p) = closing cfg s ++ [p] := by
  have hwire : Packet.wire true p = packetFlag :: wires [(false, p)] := by
    rw [Packet.wire_true, wires, List.flatMap_singleton]
  rw [hwire, decodedPackets_flag_cons, decodedPackets_wires (Or.inl rfl) (by simpa using hdata)]
  rfl

private theorem decodedPackets_wire_opened (preFlag : Bool) {p : Packet (List UInt8)}
    (hdata : p.data.length ≤ cfg.maxPacketDataLen) :
    decodedPackets cfg .opened (Packet.wire preFlag p) = [p] := by
  have hwires : decodedPackets cfg .opened (wires [(preFlag, p)]) = [p] :=
    decodedPackets_wires (Or.inl rfl) (by simpa using hdata)
  rwa [wires, List.flatMap_singleton] at hwires

/-- Part of a packet: its flag closes what was there before, and that is all. -/
private theorem decodedPackets_take_wire (s : Receiver UInt8) {preFlag : Bool}
    {p : Packet (List UInt8)} {k : ℕ} (hk : k < (Packet.wire preFlag p).length) :
    (decodedPackets cfg s ((Packet.wire preFlag p).take k)).length ≤ (closing cfg s).length := by
  have htake : (Packet.wire preFlag p).take k
      = ((if preFlag then [packetFlag] else []) ++ hdlc.stuff p.body).take k := by
    rw [Packet.wire, List.length_append, List.length_singleton] at hk
    rw [Packet.wire, List.take_append_of_le_length (Nat.le_of_lt_succ hk)]
  have hfree (k : ℕ) : packetFlag ∉ (hdlc.stuff p.body).take k := fun h ↦
    Stuffing.flag_notMem_stuff (S := hdlc) p.body (List.mem_of_mem_take h)
  rw [htake]
  cases preFlag with
  | false =>
    rw [if_neg Bool.false_ne_true, List.nil_append, decodedPackets_of_flag_free (hfree k)]
    exact Nat.zero_le _
  | true =>
    rw [if_pos rfl, List.singleton_append]
    cases k with
    | zero => exact Nat.zero_le _
    | succ k =>
      rw [List.take_succ_cons, decodedPackets_flag_cons, decodedPackets_of_flag_free (hfree k),
        List.append_nil]

/-! ## What a line delivers -/

namespace LineEvent

/-- The bytes that an event leaves on the line. -/
def bytes : LineEvent → List UInt8
  | begun _ => []
  | sent x => x.bytes

/-- The packet that an event writes completely. -/
def written? : LineEvent → Option (Packet (List UInt8))
  | begun _ => none
  | sent x => if x.outcome.IsComplete then some x.packet else none

/-- The event cuts a packet. -/
def isShort : LineEvent → Bool
  | begun _ => false
  | sent x => x.outcome.IsShort

/-- An attempt to send is as the stream answered it. -/
def Sound (cfg : Config) : LineEvent → Prop
  | begun _ => True
  | sent x => (Event.transmitted x : Event cfg Unit).Sound

end LineEvent

/-- The last call of `begin` or of `write`. -/
def lastMark (line : List LineEvent) : Option LineEvent :=
  (line.filter fun e ↦ e.IsMark).getLast?

private theorem lastMark_concat_of_isMark {e : LineEvent} (h : e.IsMark) (line : List LineEvent) :
    lastMark (line ++ [e]) = some e := by
  rw [lastMark, List.filter_append, List.filter_cons_of_pos (by simpa using h), List.filter_nil,
    List.getLast?_concat]

private theorem lastMark_concat_of_not_isMark {e : LineEvent} (h : ¬e.IsMark)
    (line : List LineEvent) :
    lastMark (line ++ [e]) = lastMark line := by
  rw [lastMark, List.filter_append, List.filter_cons_of_neg (by simpa using h), List.filter_nil,
    List.append_nil]
  rfl

/-- A receiver that has seen what was sent so far has received what was written. -/
structure Recovers (cfg : Config) (line : List LineEvent) : Prop where
  /-- After a complete packet it has just seen a flag. -/
  opened : ∀ w, lastMark line = some (.sent w) → w.outcome.IsComplete →
    Receiver.run hdlc cfg.maxPacketLen .dropped (line.flatMap LineEvent.bytes) = .opened
  received : line.filterMap LineEvent.written?
    <+ decodedPackets cfg .dropped (line.flatMap LineEvent.bytes)
  /-- There is room for one packet that nobody sent after each fragment. -/
  spurious : (decodedPackets cfg .dropped (line.flatMap LineEvent.bytes)).length
      + (closing cfg (Receiver.run hdlc cfg.maxPacketLen .dropped
          (line.flatMap LineEvent.bytes))).length
    ≤ (line.filterMap LineEvent.written?).length + line.countP LineEvent.isShort

private theorem recovers_nil : Recovers cfg [] where
  opened _ hw := absurd hw (Option.some_ne_none _).symm
  received := List.nil_sublist _
  spurious := by
    rw [List.flatMap_nil, Receiver.run_nil, closing_dropped]
    exact Nat.zero_le _

private theorem Recovers.concat_silent {line : List LineEvent} (h : Recovers cfg line)
    {e : LineEvent} (hbytes : e.bytes = []) (hwritten : e.written? = none)
    (hmark : ∀ w, lastMark (line ++ [e]) = some (.sent w) → lastMark line = some (.sent w)) :
    Recovers cfg (line ++ [e]) := by
  have hline : (line ++ [e]).flatMap LineEvent.bytes = line.flatMap LineEvent.bytes := by
    rw [List.flatMap_append, List.flatMap_singleton, hbytes, List.append_nil]
  have hpackets : (line ++ [e]).filterMap LineEvent.written?
      = line.filterMap LineEvent.written? := by
    rw [List.filterMap_append, List.filterMap_cons_none hwritten, List.filterMap_nil,
      List.append_nil]
  refine ⟨?_, ?_, ?_⟩
  · rw [hline]
    exact fun w hw ↦ h.opened w (hmark w hw)
  · rw [hline, hpackets]
    exact h.received
  · rw [hline, hpackets, List.countP_append]
    exact h.spurious.trans (Nat.add_le_add_left (Nat.le_add_right _ _) _)

private theorem bytes_eq_nil_of_isFailed {x : Transmission} (hsound : LineEvent.Sound cfg (.sent x))
    (hfailed : x.outcome.IsFailed) : x.bytes = [] := by
  obtain ⟨-, -, hbytes⟩ := hsound
  rw [hbytes]
  cases ho : x.outcome with
  | wrote written size =>
    rw [ho] at hfailed
    exact False.elim hfailed
  | _ => exact List.take_zero

private theorem exists_bytes_eq_take_of_isShort {x : Transmission}
    (hsound : LineEvent.Sound cfg (.sent x)) (hshort : x.outcome.IsShort) :
    ∃ k, k < (Packet.wire x.preFlag x.packet).length ∧
      x.bytes = (Packet.wire x.preFlag x.packet).take k := by
  obtain ⟨-, ⟨tx, houtcome⟩, hbytes⟩ := hsound
  refine ⟨x.outcome.written, ?_, hbytes⟩
  cases ho : x.outcome with
  | wrote written size =>
    rw [ho] at hshort
    obtain ⟨-, -, -, hsize⟩ := TxOutcome.ofSize_eq_wrote_iff.mp (houtcome.symm.trans ho)
    rw [← hsize]
    exact hshort
  | _ =>
    rw [ho] at hshort
    exact False.elim hshort

private theorem bytes_eq_wire_of_isComplete {x : Transmission}
    (hsound : LineEvent.Sound cfg (.sent x))
    (hcomplete : x.outcome.IsComplete) : x.bytes = Packet.wire x.preFlag x.packet := by
  obtain ⟨-, ⟨tx, houtcome⟩, hbytes⟩ := hsound
  rw [houtcome] at hcomplete hbytes
  rw [hbytes, TxOutcome.take_written_of_isComplete hcomplete]

/-- A packet written completely without a flag of its own comes right after one that was written
completely. -/
private theorem exists_lastMark_isComplete {line : List LineEvent} {x : Transmission}
    (hsound : ∀ e ∈ line, LineEvent.Sound cfg e) (hx : LineEvent.Sound cfg (.sent x))
    (hmarks : lastMark line ≠ none) (hlaw : FlagLaw line (.sent x))
    (hcomplete : x.outcome.IsComplete) (hflag : x.preFlag = false) :
    ∃ w, lastMark line = some (.sent w) ∧ w.outcome.IsComplete := by
  have hbytes := bytes_eq_wire_of_isComplete hx hcomplete
  have hneeds : ¬NeedsFlag line x := by
    intro hneeds
    have hhead := hlaw hneeds (hbytes ▸ Packet.wire_ne_nil _ _)
    rw [hbytes, Packet.head?_wire, hflag] at hhead
    exact Bool.false_ne_true hhead
  obtain ⟨e, he⟩ := Option.ne_none_iff_exists'.mp hmarks
  have hmem := List.mem_filter.mp (List.mem_of_getLast? he)
  rw [NeedsFlag, show (line.filter fun e ↦ e.IsMark).getLast? = some e from he] at hneeds
  cases e with
  | begun time => exact absurd trivial hneeds
  | sent w =>
    refine ⟨w, he, ?_⟩
    obtain ⟨-, ⟨tx, houtcome⟩, -⟩ := hsound _ hmem.1
    have hshort : ¬w.outcome.IsShort := fun h ↦ hneeds (Or.inl h)
    have hfailed : ¬w.outcome.IsFailed := of_decide_eq_true hmem.2
    rw [houtcome] at hshort hfailed ⊢
    exact (TxOutcome.isFailed_or_isComplete_of_not_isShort hshort).resolve_left hfailed

/-- **One attempt.** -/
theorem Recovers.concat_sent {line : List LineEvent} (h : Recovers cfg line) {x : Transmission}
    (hsound : ∀ e ∈ line, LineEvent.Sound cfg e) (hx : LineEvent.Sound cfg (.sent x))
    (hmarks : lastMark line ≠ none) (hlaw : FlagLaw line (.sent x)) :
    Recovers cfg (line ++ [LineEvent.sent x]) := by
  by_cases hfailed : x.outcome.IsFailed
  · refine h.concat_silent (bytes_eq_nil_of_isFailed hx hfailed) ?_ fun w hw ↦ ?_
    · exact if_neg fun hcomplete ↦ TxOutcome.not_isFailed_of_isComplete hcomplete hfailed
    · have hmark : ¬(LineEvent.sent x).IsMark := not_not.mpr hfailed
      rwa [lastMark_concat_of_not_isMark hmark] at hw
  -- an attempt that failed has left nothing, and is no mark; now for one that has left bytes
  set s := Receiver.run hdlc cfg.maxPacketLen .dropped (line.flatMap LineEvent.bytes) with hs
  have hmark : (LineEvent.sent x).IsMark := hfailed
  have hlast := lastMark_concat_of_isMark hmark line
  have hline : (line ++ [LineEvent.sent x]).flatMap LineEvent.bytes
      = line.flatMap LineEvent.bytes ++ x.bytes := by
    rw [List.flatMap_append, List.flatMap_singleton]
    rfl
  have hspurious := h.spurious
  rw [← hs] at hspurious
  by_cases hcomplete : x.outcome.IsComplete
  · -- the packet is received, after what its flag closes if it has one of its own
    have hbytes := bytes_eq_wire_of_isComplete hx hcomplete
    have hopened : Receiver.run hdlc cfg.maxPacketLen s x.bytes = .opened := by
      rw [hbytes, Packet.wire]
      exact Receiver.run_concat_flag (S := hdlc) s _
    have hdecoded : ∃ before, before.length ≤ (closing cfg s).length ∧
        decodedPackets cfg s x.bytes = before ++ [x.packet] := by
      rw [hbytes]
      cases hflag : x.preFlag with
      | true => exact ⟨closing cfg s, le_refl _, decodedPackets_wire_true s hx.1⟩
      | false =>
        obtain ⟨w, hw, hwcomplete⟩ :=
          exists_lastMark_isComplete hsound hx hmarks hlaw hcomplete hflag
        rw [hs, h.opened w hw hwcomplete]
        exact ⟨[], Nat.zero_le _, decodedPackets_wire_opened false hx.1⟩
    obtain ⟨before, hbefore, hdecoded⟩ := hdecoded
    have hwritten : (line ++ [LineEvent.sent x]).filterMap LineEvent.written?
        = line.filterMap LineEvent.written? ++ [x.packet] := by
      have hpacket : (LineEvent.sent x).written? = some x.packet := if_pos hcomplete
      rw [List.filterMap_append, List.filterMap_cons_some hpacket, List.filterMap_nil]
    refine ⟨fun _ _ _ ↦ ?_, ?_, ?_⟩
    · rw [hline, Receiver.run_append, ← hs, hopened]
    · rw [hline, hwritten, decodedPackets_append, ← hs, hdecoded]
      exact h.received.append (List.sublist_append_right _ _)
    · rw [hline, hwritten, decodedPackets_append, Receiver.run_append, ← hs, hdecoded, hopened,
        closing_opened, List.countP_append]
      simp only [List.length_append, List.length_singleton, List.length_nil]
      omega
  · -- what was cut closes at most what was open before, and leaves one thing to be closed
    have hshort : x.outcome.IsShort := by
      by_contra hshort
      obtain ⟨-, ⟨tx, houtcome⟩, -⟩ := hx
      rw [houtcome] at hshort hfailed hcomplete
      exact (TxOutcome.isFailed_or_isComplete_of_not_isShort hshort).elim hfailed hcomplete
    obtain ⟨k, hk, hbytes⟩ := exists_bytes_eq_take_of_isShort hx hshort
    have hdecoded : (decodedPackets cfg s x.bytes).length ≤ (closing cfg s).length :=
      hbytes ▸ decodedPackets_take_wire s hk
    have hwritten : (line ++ [LineEvent.sent x]).filterMap LineEvent.written?
        = line.filterMap LineEvent.written? := by
      have hnone : (LineEvent.sent x).written? = none := if_neg hcomplete
      rw [List.filterMap_append, List.filterMap_cons_none hnone, List.filterMap_nil,
        List.append_nil]
    have hcount : [LineEvent.sent x].countP LineEvent.isShort = 1 := by
      rw [List.countP_singleton, LineEvent.isShort, decide_eq_true hshort]
      rfl
    refine ⟨fun w hw hwcomplete ↦ ?_, ?_, ?_⟩
    · rw [hlast, Option.some_inj] at hw
      exact absurd (LineEvent.sent.inj hw ▸ hwcomplete) hcomplete
    · rw [hline, hwritten, decodedPackets_append]
      exact h.received.trans (List.sublist_append_left _ _)
    · have hclosing : (closing cfg (Receiver.run hdlc cfg.maxPacketLen s x.bytes)).length ≤ 1 :=
        length_closing_le _
      rw [hline, hwritten, decodedPackets_append, Receiver.run_append, ← hs, List.countP_append,
        hcount, List.length_append]
      omega

/-- **Nothing but the cut packets is lost**, where the line starts with `begin` and the law of the
pre-flags holds. -/
theorem recovers_of_flagLaw {line : List LineEvent}
    (hbegun : ∀ e ∈ line.head?, ∃ time, e = .begun time)
    (hsound : ∀ e ∈ line, LineEvent.Sound cfg e) (hlaw : Runs.Each FlagLaw line) :
    Recovers cfg line := by
  induction line using List.reverseRecOn with
  | nil => exact recovers_nil
  | append_singleton line e ih =>
    rw [List.forall_mem_append, List.forall_mem_singleton] at hsound
    rw [Runs.each_concat] at hlaw
    have hbefore : ∀ a ∈ line.head?, ∃ time, a = .begun time := by
      intro a ha
      refine hbegun a ?_
      rw [List.head?_append, ha]
      rfl
    have h := ih hbefore hsound.1 hlaw.1
    cases e with
    | begun time =>
      refine h.concat_silent rfl rfl fun w hw ↦ ?_
      rw [lastMark_concat_of_isMark (LineEvent.isMark_begun time)] at hw
      exact absurd (Option.some_inj.mp hw) LineEvent.noConfusion
    | sent x =>
      refine h.concat_sent hsound.1 hsound.2 (fun hnone ↦ ?_) hlaw.2
      obtain _ | ⟨a, line⟩ := line
      · obtain ⟨time, htime⟩ := hbegun (.sent x) rfl
        exact absurd htime LineEvent.noConfusion
      · obtain ⟨time, rfl⟩ := hbefore a rfl
        rw [lastMark, List.getLast?_eq_none_iff, List.filter_eq_nil_iff] at hnone
        exact hnone _ List.mem_cons_self (decide_eq_true (LineEvent.isMark_begun time))

/-! ## What a client sends -/

instance (history : List LineEvent) (e : LineEvent) : Decidable (ShortGap history e) :=
  match e with
  | .begun _ => inferInstanceAs (Decidable True)
  | .sent x => inferInstanceAs
      (Decidable (∀ e ∈ history.getLast?, x.checked < e.timerSet + (2 ^ 32 - 1001)))

namespace Device

variable {d d' : Device cfg H} {react : ℕ → Reaction cfg H}

/-- The line starts with the first call of `begin`. -/
def Begins (d : Device cfg H) : Prop :=
  d.begun = false ∧ d.line = [] ∨ d.begun = true ∧ ∃ time, d.line.head? = some (.begun time)

private theorem begins_step {op : Op cfg H} (h : step react d op = some d') (hd : Begins d) :
    Begins d' := by
  have hbegun' := begun_step h
  rcases hd with ⟨hbegun, hline⟩ | ⟨hbegun, time, htime⟩
  · rw [hbegun, Bool.false_or] at hbegun'
    cases op with
    | begin =>
      obtain rfl := Option.some_inj.mp h
      refine Or.inr ⟨hbegun', d.now, ?_⟩
      have hbegin : d.begin.line = d.line ++ [.begun d.now] := by
        rw [begin_of_not_begun hbegun]
        exact line_of_trace (e := .begun d.now) rfl rfl
      rw [hbegin, hline]
      rfl
    | sendCommand endpoint data responseHandler timeoutMillis tx =>
      obtain rfl := Option.some_inj.mp h
      refine Or.inl ⟨hbegun', ?_⟩
      rcases d.sendCommand_cases endpoint data responseHandler timeoutMillis tx with
        ⟨-, -, hlogs⟩ | ⟨⟨hnot, -⟩, -⟩
      · rw [hlogs.quiet.toStill.lineStill.line, hline]
      · exact absurd (hbegun.symm.trans hnot) Bool.false_ne_true
    | sendMessage endpoint data tx =>
      obtain rfl := Option.some_inj.mp h
      refine Or.inl ⟨hbegun', ?_⟩
      rcases d.sendMessage_cases endpoint data tx with ⟨-, heq⟩ | ⟨hnot, -⟩
      · rw [heq, hline]
      · exact absurd (hbegun.symm.trans hnot) Bool.false_ne_true
    | delay millis =>
      obtain rfl := Option.some_inj.mp h
      exact Or.inl ⟨hbegun', hline⟩
    | loop input =>
      rw [step, loop, if_pos hbegun, Option.some_inj] at h
      exact Or.inl ⟨hbegun', h ▸ hline⟩
  · obtain ⟨bytes, hmoves⟩ := moves_step react h
    obtain ⟨more, hmore⟩ : d.line <+: d'.line := Moves.history_prefix Event.line? hmoves
    rw [hbegun, Bool.true_or] at hbegun'
    refine Or.inr ⟨hbegun', time, ?_⟩
    rw [← hmore, List.head?_append, htime]
    rfl

private theorem IsFresh.begins (h : IsFresh d) : Begins d :=
  Or.inl ⟨h.notBegun, by rw [line, h.trace, List.filterMap_nil]⟩

/-- The attempts to send whose packets were cut. -/
def shortWrites (d : Device cfg H) : List Transmission :=
  (d.history Event.transmission?).filter fun x ↦ x.outcome.IsShort

private theorem line_eq (d : Device cfg H) :
    d.line.flatMap LineEvent.bytes = (d.history Event.transmission?).flatMap Transmission.bytes ∧
      d.line.filterMap LineEvent.written? = d.packetsWritten ∧
      d.line.countP LineEvent.isShort = d.shortWrites.length := by
  rw [packetsWritten, writes, shortWrites, ← List.countP_eq_length_filter, history, line]
  induction d.trace with
  | nil => exact ⟨rfl, rfl, rfl⟩
  | cons e trace ih =>
    obtain ⟨hbytes, hwritten, hshort⟩ := ih
    cases e with
    | transmitted x =>
      have hline : (Event.transmitted x : Event cfg H).line? = some (.sent x) := rfl
      have hattempt : (Event.transmitted x : Event cfg H).transmission? = some x := rfl
      rw [List.filterMap_cons_some hline, List.filterMap_cons_some hattempt]
      refine ⟨?_, ?_, ?_⟩
      · rw [List.flatMap_cons, List.flatMap_cons, hbytes]
        rfl
      · rw [List.filterMap_cons, List.filter_cons, hwritten, LineEvent.written?]
        by_cases hcomplete : x.outcome.IsComplete
        · simp [hcomplete]
        · simp [hcomplete]
      · rw [List.countP_cons, List.countP_cons, hshort]
        rfl
    | _ => exact ⟨hbytes, hwritten, hshort⟩

private theorem each_noFailureBefore
    (h : ∀ x ∈ d.history Event.transmission?, ¬x.outcome.IsFailed) :
    Runs.Each NoFailureBefore d.line := by
  rintro pre e post hline
  cases e with
  | begun time => trivial
  | sent x =>
    intro _ _ y hy hfailed
    have hmem : LineEvent.sent y ∈ d.line := by
      rw [hline]
      exact List.mem_append_left _ (List.mem_of_getLast? hy)
    obtain ⟨e, he, heq⟩ := List.mem_filterMap.mp hmem
    cases e with
    | transmitted z =>
      obtain rfl := LineEvent.sent.inj (Option.some_inj.mp heq)
      exact absurd hfailed (h z (mem_history_transmission_iff.mpr he))
    | begun time => exact absurd (Option.some_inj.mp heq) LineEvent.noConfusion
    | _ => exact absurd heq (Option.some_ne_none _).symm

end Device

namespace Link

variable {react : Side → ℕ → Reaction cfg H} {l : Link cfg H}

private theorem begins_of_run {ops : List (LinkOp cfg H)} {l₀ : Link cfg H} (hfresh : l₀.IsFresh)
    (hrun : Runs.run (step react) l₀ ops = some l) (side : Side) : (l.dev side).Begins := by
  have hinvariant : (∀ side, Tracks react l side) ∧ ∀ side, (l.dev side).Begins := by
    refine Runs.invariant_of_run (P := fun l ↦ (∀ side, Tracks react l side) ∧
      ∀ side, (l.dev side).Begins) (fun op _ a b ha hab ↦ ?_)
      ⟨hfresh.tracks react, fun side ↦ (hfresh.dev side).begins⟩ hrun
    obtain ⟨htracks, hbegins⟩ := ha
    obtain ⟨moved, devOp, d, hdev, hbytes, rfl⟩ :=
      step_cases (fun side ↦ (htracks side).ignoring) hab
    have hstrides := Device.strides_step hdev
    refine ⟨Tracks.advance htracks hbytes hstrides, fun side ↦ ?_⟩
    by_cases hside : side = moved
    · subst hside
      rw [show (a.advance side d _).dev side = d from Function.update_self _ _ _]
      exact Device.begins_step hdev (hbegins side)
    · rw [show (a.advance moved d _).dev side = a.dev side from Function.update_of_ne hside _ _]
      exact hbegins side
  exact hinvariant.2 side

private theorem recovers_of_run {ops : List (LinkOp cfg H)} {l₀ : Link cfg H} (hfresh : l₀.IsFresh)
    (hrun : Runs.run (step react) l₀ ops = some l) (side : Side)
    (hgaps : Runs.Each ShortGap (l.dev side).line)
    (hfailures : Runs.Each NoFailureBefore (l.dev side).line) : Recovers cfg (l.dev side).line := by
  have h := tracks_of_run hfresh hrun
  obtain ⟨hledger, -, -⟩ := Follows.ledgers (fun side ↦ (h side).follows) side
  obtain ⟨d₀, hd₀, hstrides⟩ := (h side).strides
  have hok := Device.kept_lineOk.moves (Device.Strides.moves hstrides) hd₀.lineOk
  have hlaw : Runs.Each FlagLaw (l.dev side).line := by
    refine ((hok.flagged.and hgaps).congr fun pre e h ↦ ?_).mpr hfailures
    exact flagLaw_iff_noFailureBefore h.1 h.2
  refine recovers_of_flagLaw (fun e he ↦ ?_) (fun e he ↦ ?_) hlaw
  · rcases begins_of_run hfresh hrun side with ⟨-, hline⟩ | ⟨-, time, htime⟩
    · rw [hline] at he
      exact absurd he (Option.not_mem_none e)
    · exact ⟨time, (Option.some_inj.mp (htime.symm.trans he)).symm⟩
  · obtain ⟨event, hevent, heq⟩ := List.mem_filterMap.mp he
    have hsound := hledger.sound event hevent
    cases event with
    | begun time => exact Option.some_inj.mp heq ▸ trivial
    | transmitted x => exact Option.some_inj.mp heq ▸ hsound
    | _ => exact absurd heq (Option.some_ne_none _).symm

private theorem length_filter_le_add {α : Type*} (p : α → Bool) {as bs : List α} {n : ℕ}
    (hsub : as <+ bs) (hlen : bs.length ≤ as.length + n) :
    (bs.filter p).length ≤ (as.filter p).length + n := by
  have hnot : as.countP (fun a ↦ ¬p a) ≤ bs.countP (fun a ↦ ¬p a) := hsub.countP_le
  have has := List.length_eq_countP_add_countP p (l := as)
  have hbs := List.length_eq_countP_add_countP p (l := bs)
  rw [← List.countP_eq_length_filter, ← List.countP_eq_length_filter]
  omega

/-- **Short writes cost their own packets only.** In every run of two clients on a line, from their
construction on, in which no packet of a side that needs a flag of its own comes right after a
failed attempt whose reset of the timer is still recent, and in which each attempt of the side reads
the pre-flag timer less than 2^32 - 1001 milliseconds after it was last set: once the channel is
drained the other side's handlers have been called for every packet that was written completely and
that they are installed for, in order, whatever else was cut in between; and beyond these calls
there is at most one for each cut packet, for something that nobody has sent. -/
theorem requests_of_shortWrites (react : Side → ℕ → Reaction cfg H) (ops : List (LinkOp cfg H))
    {l₀ l : Link cfg H} (hfresh : l₀.IsFresh) (hrun : Runs.run (step react) l₀ ops = some l)
    (side : Side) (hgaps : Runs.Each ShortGap (l.dev side.peer).line)
    (hfailures : Runs.Each NoFailureBefore (l.dev side.peer).line)
    (hdrained : l.inFlight side = []) :
    (l.dev side.peer).packetsWritten.filter (l.dev side).handles
        <+ (l.dev side).history Event.request? ∧
      ((l.dev side).history Event.request?).length
        ≤ ((l.dev side.peer).packetsWritten.filter (l.dev side).handles).length
          + (l.dev side.peer).shortWrites.length := by
  have h := tracks_of_run hfresh hrun
  have hrecovers := recovers_of_run hfresh hrun side.peer hgaps hfailures
  obtain ⟨hledger, -, -⟩ := Follows.ledgers (fun side ↦ (h side).follows) side.peer
  obtain ⟨hbytes, hwritten, hshort⟩ := (l.dev side.peer).line_eq
  have htaken : l.taken side = (l.dev side.peer).line.flatMap LineEvent.bytes := by
    rw [taken, List.take_of_length_le (List.drop_eq_nil_iff.mp hdrained), hledger.sent, hbytes]
  rw [(h side).requests, htaken, ← hwritten, ← hshort]
  refine ⟨hrecovers.received.filter _, length_filter_le_add _ hrecovers.received ?_⟩
  exact (Nat.le_add_right _ _).trans hrecovers.spurious

/-- A message that is cut in the middle, and one that is not. -/
def cutMessage : List (LinkOp Config.default Unit) :=
  [.begin .left, .begin .right, .sendMessage .left 1 Device.noBytes ⟨0, 0, 100, 3, 0⟩,
    .sendMessage .left 2 Device.noBytes ⟨0, 0, 100, 100, 0⟩, .loop .right 9 [0] 0 0]

private theorem isSome_run_cutMessage :
    (Runs.run (step answering) freshPair cutMessage).isSome := by
  decide +kernel

theorem requests_of_shortWrites_cutMessage :
    ∃ l, Runs.run (step answering) freshPair cutMessage = some l ∧
      (l.dev .left).shortWrites.length = 1 ∧
      [Packet.message 2 []] <+ (l.dev .right).history Event.request? ∧
      ((l.dev .right).history Event.request?).length ≤ 2 := by
  have hrun := (Option.some_get isSome_run_cutMessage).symm
  have h := requests_of_shortWrites answering cutMessage
    ⟨fun _ ↦ Device.isFresh_create _ _ _, fun _ ↦ rfl⟩ hrun .right (by decide +kernel)
    (Device.each_noFailureBefore (by decide +kernel)) (by decide +kernel)
  have hwritten : ((Option.get _ isSome_run_cutMessage).dev .left).packetsWritten.filter
      ((Option.get _ isSome_run_cutMessage).dev .right).handles = [Packet.message 2 []] := by
    decide +kernel
  have hcut : ((Option.get _ isSome_run_cutMessage).dev .left).shortWrites.length = 1 := by
    decide +kernel
  refine ⟨_, hrun, hcut, hwritten ▸ h.1, h.2.trans_eq ?_⟩
  rw [show Side.right.peer = .left from rfl, hwritten, hcut]
  rfl

end Link

end SerialPackets

import Mathlib.Data.Nat.ModEq
import SerialPackets.Client.Pending
import SerialPackets.Client.Ledger
import SerialPackets.Client.Stages
import SerialPackets.Lib.Stamps

/-!
# Command ids across the wrap

The id counter runs through all values but zero and then starts again, and it moves on for every
attempt to send a command, successful or not. Nothing keeps it from reaching an id that is still in
the pending table. The ids there are distinct all the same as long as no command stays pending while
the counter goes all the way round, that is, while `2 ^ 32 - 1` ids are assigned: contexts are
filled and cleared in any order, also from inside of handlers, but the number of ids assigned since
a command was accepted is different for each of them (`idTable_of_visits`).
-/

namespace SerialPackets

variable {cfg : Config} {H : Type*}

/-! ## The cycle of ids -/

namespace Device

private theorem toNat_nextCmdId (counter : UInt32) :
    (nextCmdId counter).toNat = counter.toNat % (2 ^ 32 - 1) + 1 := by
  have hlt := counter.toNat_lt
  have hsucc : (counter + 1).toNat = (counter.toNat + 1) % 2 ^ 32 := UInt32.toNat_add counter 1
  rw [nextCmdId]
  split
  · rename_i hzero
    rw [hzero, UInt32.toNat_zero] at hsucc
    rw [hzero]
    have hlast : counter.toNat = 2 ^ 32 - 1 := by omega
    rw [hlast]
    rfl
  · rename_i hne
    have hne' : (counter + 1).toNat ≠ 0 := fun h ↦ hne (UInt32.toNat_inj.mp h)
    omega

private theorem toNat_iterate_nextCmdId {cmdId : UInt32} (hne : cmdId ≠ 0) (n : ℕ) :
    (nextCmdId^[n] cmdId).toNat = (cmdId.toNat - 1 + n) % (2 ^ 32 - 1) + 1 := by
  have hpos : cmdId.toNat ≠ 0 := fun h ↦ hne (UInt32.toNat_inj.mp h)
  induction n with
  | zero =>
    have hlt := cmdId.toNat_lt
    rw [Function.iterate_zero, id, Nat.add_zero, Nat.mod_eq_of_lt (by omega)]
    omega
  | succ n ih =>
    rw [Function.iterate_succ_apply', toNat_nextCmdId, ih, Nat.mod_add_mod, Nat.add_assoc]

/-- **The cycle has `2 ^ 32 - 1` ids.** -/
theorem injOn_iterate_nextCmdId {cmdId : UInt32} (hne : cmdId ≠ 0) :
    Set.InjOn (fun n ↦ nextCmdId^[n] cmdId) (Set.Iio (2 ^ 32 - 1)) := by
  intro m hm n hn heq
  have hmod := congrArg UInt32.toNat heq
  rw [toNat_iterate_nextCmdId hne, toNat_iterate_nextCmdId hne] at hmod
  have hcancel : m ≡ n [MOD 2 ^ 32 - 1] :=
    Nat.ModEq.add_left_cancel' (cmdId.toNat - 1) (Nat.succ_injective hmod)
  exact hcancel.eq_of_lt_of_lt hm hn

end Device

/-! ## The pending table as a table of stamps -/

/-- Assigning an id draws a value of the counter; accepting a command makes the entry of a slot. -/
def Event.effect : Event cfg H → Stamps.Effect (Fin cfg.maxPendingCommands) (UInt32 × H)
  | .idAssigned _ => .draw
  | .accepted slot cmdId handler => .make slot (cmdId, handler)
  | .released slot => .free slot
  | _ => .keep

theorem CommandContext.pending?_eq_some_iff {context : CommandContext H} {cmdId : UInt32}
    {handler : H} :
    context.pending? = some (cmdId, handler) ↔
      cmdId ≠ 0 ∧ context.cmdId = cmdId ∧ context.responseHandler = some handler := by
  rw [pending?]
  split
  · rename_i hfree
    refine iff_of_false (Option.some_ne_none _).symm ?_
    rintro ⟨hne, hid, -⟩
    exact hne (hid.symm.trans hfree)
  · rename_i hpending
    rw [Option.map_eq_some_iff]
    constructor
    · rintro ⟨handler', hhandler, heq⟩
      obtain ⟨rfl, rfl⟩ := Prod.mk.inj heq
      exact ⟨hpending, rfl, hhandler⟩
    · rintro ⟨-, rfl, hhandler⟩
      exact ⟨handler, hhandler, rfl⟩

namespace Device

variable {d d' : Device cfg H}

/-- The pending table is the table of stamps that the history of the client amounts to. -/
structure IdLedger (d : Device cfg H) : Prop where
  entries : ∀ slot, (Stamps.table Event.effect d.trace slot).map Prod.fst
    = (d.commandContexts slot).pending?
  numbered : Stamps.Numbered Event.effect nextCmdId Prod.fst d.trace d.cmdIdCounter

/-- The id that was assigned last is not in the table. -/
abbrev IdUnused (d : Device cfg H) : Prop :=
  Stamps.Unused (Event.effect : Event cfg H → _) d.trace

private theorem IdLedger.still (h : IdLedger d) (hstill : Still d d') : IdLedger d' := by
  constructor
  · rw [hstill.trace, hstill.contexts]
    exact h.entries
  · rw [hstill.trace, hstill.counter]
    exact h.numbered

private theorem IdLedger.keep (h : IdLedger d) {e : Event cfg H} (he : e.effect = .keep)
    (htrace : d'.trace = d.trace ++ [e]) (hcontexts : d'.commandContexts = d.commandContexts)
    (hcounter : d'.cmdIdCounter = d.cmdIdCounter) : IdLedger d' := by
  constructor
  · rw [htrace, hcontexts, Stamps.table_concat_keep he]
    exact h.entries
  · rw [htrace, hcounter]
    exact h.numbered.keep he

private theorem IdLedger.transmits (h : IdLedger d) {start : ℕ} {p : Packet (List UInt8)}
    {tx : TxAnswers} {x : Transmission} (htx : Transmits d d' start p tx x) : IdLedger d' :=
  h.keep rfl htx.trace htx.contexts htx.counter

private theorem IdLedger.assignCmdId (h : IdLedger d) : IdLedger d.assignCmdId := by
  have heffect : (Event.idAssigned (nextCmdId d.cmdIdCounter) : Event cfg H).effect = .draw := rfl
  constructor
  · intro slot
    rw [Device.assignCmdId, Stamps.table_concat, heffect, Stamps.Effect.apply, Option.map_map]
    exact h.entries slot
  · exact h.numbered.draw heffect

private theorem idUnused_assignCmdId (d : Device cfg H) : IdUnused d.assignCmdId :=
  Stamps.unused_draw (e := (Event.idAssigned (nextCmdId d.cmdIdCounter) : Event cfg H)) rfl

private theorem IdLedger.setUpContext (h : IdLedger d) (hunused : IdUnused d)
    (slot : Fin cfg.maxPendingCommands) {cmdId : UInt32} (hcounter : cmdId = d.cmdIdCounter)
    (hne : cmdId ≠ 0) (handler : H) (timeoutMillis : UInt16) :
    IdLedger (d.setUpContext slot cmdId handler timeoutMillis) := by
  have heffect : (Event.accepted slot cmdId handler : Event cfg H).effect
      = .make slot (cmdId, handler) := rfl
  constructor
  · intro other
    rw [commandContexts_setUpContext, Device.setUpContext, Stamps.table_concat, heffect,
      Stamps.Effect.apply]
    by_cases hother : other = slot
    · rw [hother, Function.update_self, Function.update_self]
      exact (CommandContext.pending?_eq_some_iff.mpr ⟨hne, rfl, rfl⟩).symm
    · rw [Function.update_of_ne hother, Function.update_of_ne hother]
      exact h.entries other
  · exact h.numbered.make hunused heffect hcounter

private theorem IdLedger.clearContext (h : IdLedger d) (slot : Fin cfg.maxPendingCommands) :
    IdLedger (d.clearContext slot) := by
  have heffect : (Event.released slot : Event cfg H).effect = .free slot := rfl
  constructor
  · intro other
    rw [commandContexts_clearContext, Device.clearContext, Stamps.table_concat, heffect,
      Stamps.Effect.apply]
    by_cases hother : other = slot
    · rw [hother, Function.update_self, Function.update_self]
      rfl
    · rw [Function.update_of_ne hother, Function.update_of_ne hother]
      exact h.entries other
  · exact h.numbered.free heffect

/-! ## Moves and stages -/

private theorem Send.idLedger (hsend : Send d d') (h : IdLedger d) : IdLedger d' := by
  cases hsend with
  | quiet hquiet => exact h.still hquiet.toStill
  | message htx => exact h.transmits htx
  | command htx _ => exact h.assignCmdId.transmits htx
  | @acceptedCommand d₁ _ _ _ x htx _ slot _ handler timeoutMillis =>
    have hunused : IdUnused d₁ := by
      rw [IdUnused, htx.trace]
      exact d.idUnused_assignCmdId.keep rfl
    exact (h.assignCmdId.transmits htx).setUpContext hunused slot htx.counter.symm
      (nextCmdId_ne_zero _) handler timeoutMillis

theorem kept_idLedger : Kept (IdLedger : Device cfg H → Prop) where
  send := Send.idLedger
  still hstill h := h.still hstill
  begin {d} hbegun h := by
    rw [begin_of_not_begun hbegun]
    exact h.keep (e := .begun d.now) rfl rfl rfl rfl
  call hcall h := by
    rcases hcall with _ | _ | _ | _ | _ <;> exact h.keep rfl rfl rfl rfl
  respond _ hresponse h := h.transmits hresponse
  clear slot h := h.clearContext slot

variable (react : ℕ → Reaction cfg H)

private theorem Stage.idLedger (hstage : Stage react d d') (h : IdLedger d) : IdLedger d' := by
  cases hstage with
  | begin => exact kept_idLedger.moves d.moves_begin h
  | act source action => exact kept_idLedger.sends (sends_act source d action) h
  | actOnCommand status action => exact kept_idLedger.sends (sends_actOnCommand status d action) h
  | afterRead waitMillis count got => exact h.still (d.quiet_afterRead waitMillis count got).toStill
  | decoded b => exact h.still (d.decodes_decoded b).toStill
  | decodeByte b => exact kept_idLedger.moves (moves_decodeByte react d b) h
  | restartTimer => exact h.still (d.quiet_internal _ _ _ _ (le_refl _)).toStill
  | timeout cmdId => exact h.still (d.quiet_internal _ _ _ _ (le_refl _)).toStill
  | cleanupSlot millisNow slot =>
    exact kept_idLedger.moves (moves_cleanupSlot react millisNow d slot) h
  | responseCall slot handler cmdId status data origin =>
    exact h.keep (e := .responseCall slot handler cmdId status data origin) rfl rfl rfl rfl
  | commandCall cmdId endpoint =>
    exact h.keep (e := .commandCall cmdId endpoint d.packetDecoder.decodedData.contents) rfl rfl
      rfl rfl
  | messageCall endpoint =>
    exact h.keep (e := .messageCall endpoint d.packetDecoder.decodedData.contents) rfl rfl rfl rfl

/-- **The ledger of ids is kept**, across the wrap and in any order. -/
theorem Visits.idLedger (hvisits : Visits react d d') (h : IdLedger d) : IdLedger d' := by
  induction hvisits with
  | refl => exact h
  | tail _ hstage ih => exact hstage.idLedger react ih

theorem IsFresh.idLedger (h : IsFresh d) : IdLedger d := by
  constructor
  · intro slot
    rw [h.trace, h.contexts slot]
    rfl
  · rw [h.trace]
    exact .nil

/-! ## Distinct ids -/

/-- A command was accepted into a slot, with its handler, and these are the events since then. The
slot has not been released since, nor has another command been accepted into it. -/
def PendingSince (d : Device cfg H) (slot : Fin cfg.maxPendingCommands) (cmdId : UInt32)
    (handler : H) (since : List (Event cfg H)) : Prop :=
  ∃ before, d.trace = before ++ .accepted slot cmdId handler :: since ∧
    .released slot ∉ since ∧ ∀ cmdId' handler', .accepted slot cmdId' handler' ∉ since

/-- Not all ids have been assigned since any of the commands was accepted that are pending now. -/
def ShortlyPending (d : Device cfg H) : Prop :=
  ∀ slot cmdId handler since, d.PendingSince slot cmdId handler since →
    (since.filterMap Event.assigned?).length < 2 ^ 32 - 1

/-- While fewer ids than there are have been assigned at all, every command is pending shortly. -/
theorem shortlyPending_of_length_lt (h : (d.history Event.assigned?).length < 2 ^ 32 - 1) :
    ShortlyPending d := by
  rintro slot cmdId handler since ⟨before, htrace, -⟩
  refine lt_of_le_of_lt ?_ h
  rw [history, htrace]
  exact (((List.sublist_cons_self _ since).trans (List.sublist_append_right before _)).filterMap
    _).length_le

private theorem length_filterMap_assigned? (events : List (Event cfg H)) :
    (events.filterMap Event.assigned?).length = Stamps.draws Event.effect events := by
  rw [List.length_filterMap_eq_countP, Stamps.draws]
  congr 1
  funext e
  cases e <;> rfl

private theorem key?_effect_eq_some_iff {e : Event cfg H} {slot : Fin cfg.maxPendingCommands} :
    e.effect.key? = some slot ↔
      e = .released slot ∨ ∃ cmdId handler, e = .accepted slot cmdId handler := by
  cases e <;> simp [Event.effect, Stamps.Effect.key?]

private theorem pendingSince_iff {slot : Fin cfg.maxPendingCommands} {cmdId : UInt32} {handler : H}
    {since : List (Event cfg H)} :
    d.PendingSince slot cmdId handler since ↔
      Stamps.MadeBefore Event.effect d.trace slot (cmdId, handler) since := by
  have huntouched : (∀ e ∈ since, e.effect.key? ≠ some slot) ↔
      .released slot ∉ since ∧ ∀ cmdId' handler', .accepted slot cmdId' handler' ∉ since := by
    simp only [Ne, key?_effect_eq_some_iff, not_or, not_exists]
    constructor
    · intro h
      exact ⟨fun hmem ↦ (h _ hmem).1 rfl, fun _ _ hmem ↦ (h _ hmem).2 _ _ rfl⟩
    · rintro ⟨hreleased, haccepted⟩ e he
      exact ⟨fun heq ↦ hreleased (heq ▸ he), fun _ _ heq ↦ haccepted _ _ (heq ▸ he)⟩
  constructor
  · rintro ⟨before, htrace, hsince⟩
    exact ⟨before, _, htrace, rfl, huntouched.mpr hsince⟩
  · rintro ⟨before, e, htrace, he, hsince⟩
    cases e with
    | accepted slot' cmdId' handler' =>
      obtain ⟨rfl, hcontent⟩ := Stamps.Effect.make.inj he
      obtain ⟨rfl, rfl⟩ := Prod.mk.inj hcontent
      exact ⟨before, htrace, huntouched.mp hsince⟩
    | _ => exact nomatch he

/-- **The commands accepted into slots that were not released** are those in the table. -/
theorem IdLedger.exists_pendingSince_iff (h : IdLedger d) {slot : Fin cfg.maxPendingCommands}
    {cmdId : UInt32} {handler : H} :
    (∃ since, d.PendingSince slot cmdId handler since) ↔
      cmdId ≠ 0 ∧ (d.commandContexts slot).cmdId = cmdId ∧
        (d.commandContexts slot).responseHandler = some handler := by
  rw [← CommandContext.pending?_eq_some_iff, ← h.entries slot, Option.map_eq_some_iff]
  constructor
  · rintro ⟨since, hsince⟩
    exact ⟨_, Stamps.table_eq_some_iff.mpr ⟨since, pendingSince_iff.mp hsince, rfl⟩, rfl⟩
  · rintro ⟨⟨content, age⟩, hentry, rfl⟩
    obtain ⟨since, hmade, -⟩ := Stamps.table_eq_some_iff.mp hentry
    exact ⟨since, pendingSince_iff.mpr hmade⟩

/-- What holds of the pending table and its ids. -/
structure IdTable (d : Device cfg H) : Prop where
  /-- The ids of contexts that are not free are pairwise distinct. -/
  distinct : ∀ slot slot', (d.commandContexts slot).cmdId ≠ 0 →
    (d.commandContexts slot).cmdId = (d.commandContexts slot').cmdId → slot = slot'
  /-- The next id is not zero. -/
  nextId : d.assignCmdId.cmdIdCounter ≠ 0
  /-- A context that is not free has a handler. -/
  handlers : ∀ slot, (d.commandContexts slot).cmdId ≠ 0 →
    (d.commandContexts slot).responseHandler ≠ none
  /-- The branches for contexts without a handler have not been taken. -/
  noNullHandler : ∀ r ∈ d.reports, ¬r.IsNullHandler
  /-- A context that is free has no handler. -/
  free : ∀ slot, (d.commandContexts slot).cmdId = 0 →
    (d.commandContexts slot).responseHandler = none
  /-- The contexts that are not free hold the commands accepted into them and not yet released. -/
  allocated : ∀ slot cmdId handler, (∃ since, d.PendingSince slot cmdId handler since) ↔
    cmdId ≠ 0 ∧ (d.commandContexts slot).cmdId = cmdId ∧
      (d.commandContexts slot).responseHandler = some handler
  /-- The context found for the id of a pending command is the one of that command. -/
  found : ∀ slot cmdId handler since, d.PendingSince slot cmdId handler since →
    d.findContextWithCmdId cmdId = some slot

theorem IdLedger.eq_of_cmdId_eq (h : IdLedger d) (hshort : ShortlyPending d)
    {slot slot' : Fin cfg.maxPendingCommands} {cmdId : UInt32} {handler handler' : H}
    {since since' : List (Event cfg H)} (hsince : d.PendingSince slot cmdId handler since)
    (hsince' : d.PendingSince slot' cmdId handler' since') : slot = slot' := by
  have hne : cmdId ≠ 0 := (h.exists_pendingSince_iff.mp ⟨since, hsince⟩).1
  have hage := hshort slot cmdId handler since hsince
  have hage' := hshort slot' cmdId handler' since' hsince'
  rw [length_filterMap_assigned?] at hage hage'
  exact h.numbered.eq_of_stampOf_eq
    (Stamps.table_eq_some_iff.mpr ⟨since, pendingSince_iff.mp hsince, rfl⟩)
    (Stamps.table_eq_some_iff.mpr ⟨since', pendingSince_iff.mp hsince', rfl⟩)
    (injOn_iterate_nextCmdId hne) hage hage' rfl

/-- **The pending table across the wrap.** From a new client on, in every state visited, in the
course of a callback or between two bytes or two slots of a sweep, with any callbacks, streams and
clocks: as long as not all ids are assigned while one command is pending, the ids in the table are
distinct, the next id is not zero, exactly the contexts that are not free have handlers, and the
context found for an id is the one the command with that id was accepted into. -/
theorem idTable_of_visits {d₀ : Device cfg H} (hfresh : IsFresh d₀) (hreports : d₀.reports = [])
    (hvisits : Visits react d₀ d) (hshort : ShortlyPending d) : IdTable d := by
  have hledger := hvisits.idLedger react hfresh.idLedger
  have htidy := hvisits.tidy react (hfresh.tidy hreports)
  have hhandlers : ∀ slot, (d.commandContexts slot).cmdId ≠ 0 →
      (d.commandContexts slot).responseHandler ≠ none :=
    fun slot hpending hnone ↦ hpending ((htidy.contexts slot).mpr hnone)
  have hdistinct : ∀ slot slot', (d.commandContexts slot).cmdId ≠ 0 →
      (d.commandContexts slot).cmdId = (d.commandContexts slot').cmdId → slot = slot' := by
    intro slot slot' hpending heq
    obtain ⟨handler, hhandler⟩ := Option.ne_none_iff_exists'.mp (hhandlers slot hpending)
    obtain ⟨handler', hhandler'⟩ := Option.ne_none_iff_exists'.mp (hhandlers slot' (heq ▸ hpending))
    obtain ⟨since, hsince⟩ := hledger.exists_pendingSince_iff.mpr ⟨hpending, rfl, hhandler⟩
    obtain ⟨since', hsince'⟩ :=
      hledger.exists_pendingSince_iff.mpr ⟨hpending, heq.symm, hhandler'⟩
    exact hledger.eq_of_cmdId_eq hshort hsince hsince'
  refine ⟨hdistinct, nextCmdId_ne_zero _, hhandlers, htidy.reports,
    fun slot ↦ (htidy.contexts slot).mp, fun _ _ _ ↦ hledger.exists_pendingSince_iff, ?_⟩
  intro slot cmdId handler since hsince
  obtain ⟨hne, hid, -⟩ := hledger.exists_pendingSince_iff.mp ⟨since, hsince⟩
  rcases hfind : d.findContextWithCmdId cmdId with _ | slot'
  · have hnot := List.find?_eq_none.mp hfind slot (List.mem_finRange slot)
    exact absurd (decide_eq_true hid) hnot
  · have hid' := cmdId_of_findContextWithCmdId hfind
    rw [hdistinct slot slot' (hid ▸ hne) (hid.trans hid'.symm)]

/-- Two commands, and in between a third one that the stream has no room for. -/
def failedAttempt : List (Op Config.default Unit) :=
  [.begin, .sendCommand 0 noBytes (some ()) 1000 ⟨0, 0, 100, 100, 0⟩,
    .sendCommand 0 noBytes (some ()) 1000 ⟨0, 0, 0, 0, 0⟩,
    .sendCommand 0 noBytes (some ()) 1000 ⟨0, 0, 100, 100, 0⟩]

theorem idTable_of_visits_failedAttempt :
    ∃ d, Runs.run (step idle) (create none none 0) failedAttempt = some d ∧
      d.acceptances = [(1, ()), (3, ())] ∧ IdTable d :=
  ⟨_, rfl, by decide +kernel, idTable_of_visits idle (isFresh_create none none 0) rfl
    (@visits_run _ _ idle (create none none 0) _ failedAttempt rfl)
    (shortlyPending_of_length_lt (by decide +kernel))⟩

end Device

end SerialPackets

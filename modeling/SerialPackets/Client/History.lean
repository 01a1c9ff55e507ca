import SerialPackets.Client.Ledger

/-!
# The history of a client

The history of a client is a sequence of *blocks*, one for each thing that the client does: an
attempt to send, with the id that was assigned for it and the acceptance that ends it; the call of a
callback, its return, the release of a slot. What holds of every block holds of what the history
gains over any sequence of moves (`Moves.exists_blocks`), so that facts about histories are proved
block by block. In particular the commands written completely are the commands accepted, in the same
order.
-/

namespace SerialPackets

open scoped List

variable {cfg : Config} {H : Type*}

namespace Event

/-- The id of the command that an event writes completely. -/
def writtenId? : Event cfg H → Option UInt32
  | .transmitted x => if x.outcome.IsComplete then x.packet.commandId? else none
  | _ => none

end Event

/-- The events of one thing that a client does. -/
inductive Block : List (Event cfg H) → Prop
  | begun (time : ℕ) : Block [.begun time]
  | call {e : Event cfg H} (h : Device.IsCall e) : Block [e]
  | released (slot : Fin cfg.maxPendingCommands) : Block [.released slot]
  -- a message or a response
  | attempt {x : Transmission} (h : x.packet.commandId? = none) : Block [.transmitted x]
  | command {cmdId : UInt32} {x : Transmission} (h : x.packet.commandId? = some cmdId)
      (hincomplete : ¬x.outcome.IsComplete) : Block [.idAssigned cmdId, .transmitted x]
  | acceptedCommand {cmdId : UInt32} {x : Transmission} (h : x.packet.commandId? = some cmdId)
      (hcomplete : x.outcome.IsComplete) (slot : Fin cfg.maxPendingCommands) (handler : H) :
      Block [.idAssigned cmdId, .transmitted x, .accepted slot cmdId handler]

namespace Block

variable {events : List (Event cfg H)}

/-- **What is written is what is accepted**, block by block. -/
theorem written_eq (h : Block events) :
    events.filterMap Event.writtenId? = (events.filterMap Event.accepted?).map Prod.fst := by
  cases h with
  | begun time => rfl
  | call h => cases h <;> rfl
  | released slot => rfl
  | attempt h => simp [List.filterMap_cons, Event.writtenId?, Event.accepted?, h]
  | command h hincomplete =>
    simp [List.filterMap_cons, Event.writtenId?, Event.accepted?, hincomplete]
  | acceptedCommand h hcomplete slot handler =>
    simp [List.filterMap_cons, Event.writtenId?, Event.accepted?, h, hcomplete]

end Block

namespace Device

variable {d d' : Device cfg H} {bytes : List UInt8}

/-! ## Blocks -/

/-- What has happened since `d` is a sequence of blocks. -/
def GrowsByBlocks (d d' : Device cfg H) : Prop :=
  ∃ blocks : List (List (Event cfg H)), (∀ events ∈ blocks, Block events) ∧
    d'.trace = d.trace ++ blocks.flatten

theorem GrowsByBlocks.refl (d : Device cfg H) : GrowsByBlocks d d :=
  ⟨[], by simp, (List.append_nil _).symm⟩

theorem GrowsByBlocks.concat {m : Device cfg H} (h : GrowsByBlocks d m)
    {events : List (Event cfg H)} (hblock : Block events) (htrace : d'.trace = m.trace ++ events) :
    GrowsByBlocks d d' := by
  obtain ⟨blocks, hblocks, hm⟩ := h
  refine ⟨blocks ++ [events], ?_, by simp [htrace, hm]⟩
  rw [List.forall_mem_append, List.forall_mem_singleton]
  exact ⟨hblocks, hblock⟩

theorem GrowsByBlocks.still {m : Device cfg H} (h : GrowsByBlocks d m)
    (htrace : d'.trace = m.trace) : GrowsByBlocks d d' := by
  rwa [GrowsByBlocks, htrace]

theorem kept_growsByBlocks (d₀ : Device cfg H) : Kept (GrowsByBlocks d₀) where
  send h hd := by
    cases h with
    | quiet h => exact hd.still h.trace
    | message h => exact hd.concat (.attempt (by rw [h.packet]; rfl)) h.trace
    | command h hincomplete =>
      refine hd.concat (.command (by rw [h.packet]; rfl) hincomplete) ?_
      rw [h.trace, assignCmdId, List.append_assoc]
      rfl
    | @acceptedCommand _ _ _ _ _ h hcomplete slot _ handler timeoutMillis =>
      refine hd.concat (.acceptedCommand (by rw [h.packet]; rfl) hcomplete slot handler) ?_
      rw [setUpContext, h.trace, assignCmdId, List.append_assoc, List.append_assoc]
      rfl
  still h hd := hd.still h.trace
  begin {d} h hd := by
    rw [begin_of_not_begun h]
    exact hd.concat (.begun d.now) rfl
  call h hd := hd.concat (.call h) rfl
  respond _ h hd := hd.concat (.attempt (by rw [h.packet]; rfl)) h.trace
  clear slot hd := hd.concat (.released slot) rfl

/-- **The history grows by blocks.** -/
theorem Moves.growsByBlocks (h : Moves d bytes d') : GrowsByBlocks d d' :=
  (kept_growsByBlocks d).moves h (.refl d)

/-! ## What follows for histories -/

theorem Moves.history_prefix {β : Type*} (f : Event cfg H → Option β) (h : Moves d bytes d') :
    d.history f <+: d'.history f := by
  obtain ⟨blocks, -, htrace⟩ := Moves.growsByBlocks h
  rw [history_append f htrace]
  exact List.prefix_append _ _

private theorem filterMap_flatten_eq {β γ : Type*} {f : Event cfg H → Option β}
    {g : Event cfg H → Option γ} {k : β → γ} {blocks : List (List (Event cfg H))}
    (h : ∀ events ∈ blocks, events.filterMap g = (events.filterMap f).map k) :
    blocks.flatten.filterMap g = (blocks.flatten.filterMap f).map k := by
  induction blocks with
  | nil => rfl
  | cons events blocks ih =>
    rw [List.forall_mem_cons] at h
    rw [List.flatten_cons, List.filterMap_append, List.filterMap_append, List.map_append, h.1,
      ih h.2]

/-- **The commands written completely are those accepted**, in order. -/
theorem commandIds_packetsWritten {d₀ : Device cfg H} (hfresh : IsFresh d₀) (h : Moves d₀ bytes d) :
    d.packetsWritten.filterMap Packet.commandId? = d.acceptances.map Prod.fst := by
  obtain ⟨blocks, hblocks, htrace⟩ := Moves.growsByBlocks h
  rw [hfresh.trace, List.nil_append] at htrace
  have hwritten : d.packetsWritten.filterMap Packet.commandId? = d.history Event.writtenId? := by
    rw [packetsWritten, writes, history, history, ← List.filterMap_eq_filter, List.filterMap_map,
      List.filterMap_filterMap, List.filterMap_filterMap]
    congr 1
    funext e
    cases e with
    | transmitted x =>
      by_cases hcomplete : x.outcome.IsComplete <;>
        simp [Event.transmission?, Event.writtenId?, Option.guard, hcomplete]
    | _ => rfl
  rw [hwritten, acceptances, history, history, htrace]
  exact filterMap_flatten_eq fun events hevents ↦ (hblocks events hevents).written_eq

end Device

end SerialPackets

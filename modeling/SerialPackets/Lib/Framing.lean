import Mathlib.Data.List.Basic
import Mathlib.Data.List.Count
import Mathlib.Data.List.Induction

/-!
# Flag-delimited framing with byte stuffing

The transparency scheme of HDLC-style links, over an arbitrary alphabet. Frames are separated by a
*flag* symbol; inside a frame the flag and the *escape* symbol are each replaced by the escape
followed by a masked symbol, so that the flag never occurs between two frame boundaries.

The receiving half is a three-variable machine: whether it is inside a frame, the symbols of the
unfinished frame, and whether an escape is pending. Its state after a flag-free segment is computed
here from the segment alone (`run_iff_of_flag_free`), which is what lets a byte-driven receiver be
compared with a batch grammar. A symbol that would exceed the length limit, or an escape followed
by something that is not a masked special, drops the frame; nothing but a flag starts a new one.

The receiver deliberately goes on accumulating symbols while it is outside a frame: the flag that
ends such a run starts a frame and reports nothing, so the accumulated symbols are never seen.
-/

namespace Framing

/-- The two special symbols of a stuffing scheme and the masking that hides them. -/
structure Stuffing (α : Type*) where
  /-- The symbol between frames. -/
  flag : α
  /-- The symbol that announces a masked one. -/
  esc : α
  /-- The masking. -/
  mask : α → α
  mask_mask : ∀ b, mask (mask b) = b
  mask_flag_ne_flag : mask flag ≠ flag
  mask_esc_ne_flag : mask esc ≠ flag
  esc_ne_flag : esc ≠ flag

namespace Stuffing

variable {α : Type*} [DecidableEq α] (S : Stuffing α)

/-- The symbols that must not appear literally inside a frame. -/
def special (b : α) : Bool := decide (b = S.flag) || decide (b = S.esc)

/-- One symbol on the wire. -/
def stuffOne (b : α) : List α := if S.special b then [S.esc, S.mask b] else [b]

/-- A frame body on the wire, without its flags. -/
def stuff (body : List α) : List α := body.flatMap S.stuffOne

variable {S}

theorem special_iff {b : α} : S.special b = true ↔ b = S.flag ∨ b = S.esc := by
  rw [special, Bool.or_eq_true, decide_eq_true_iff, decide_eq_true_iff]

theorem special_eq_false_iff {b : α} : S.special b = false ↔ b ≠ S.flag ∧ b ≠ S.esc := by
  rw [← Bool.not_eq_true, special_iff, not_or]

@[simp] theorem special_esc : S.special S.esc = true := special_iff.mpr (Or.inr rfl)

@[simp] theorem stuff_nil : S.stuff [] = [] := rfl

@[simp] theorem stuff_cons (b : α) (body : List α) :
    S.stuff (b :: body) = S.stuffOne b ++ S.stuff body := rfl

@[simp] theorem stuff_append (a b : List α) : S.stuff (a ++ b) = S.stuff a ++ S.stuff b :=
  List.flatMap_append

theorem stuffOne_of_special {b : α} (h : S.special b = true) :
    S.stuffOne b = [S.esc, S.mask b] := by
  rw [stuffOne, if_pos h]

theorem stuffOne_of_not_special {b : α} (h : S.special b = false) : S.stuffOne b = [b] := by
  rw [stuffOne, if_neg (by simp [h])]

theorem length_stuffOne (b : α) :
    (S.stuffOne b).length = 1 + if S.special b then 1 else 0 := by
  cases h : S.special b <;> simp [stuffOne, h]

theorem length_stuff (body : List α) :
    (S.stuff body).length = body.length + body.countP S.special := by
  induction body with
  | nil => rfl
  | cons b body ih =>
    rw [stuff_cons, List.length_append, length_stuffOne, ih, List.length_cons, List.countP_cons]
    omega

theorem length_le_length_stuff (body : List α) : body.length ≤ (S.stuff body).length := by
  rw [length_stuff]
  exact Nat.le_add_right _ _

theorem flag_notMem_stuffOne (b : α) : S.flag ∉ S.stuffOne b := by
  cases h : S.special b with
  | true =>
    rw [stuffOne_of_special h]
    rcases special_iff.mp h with rfl | rfl
    · simp [S.esc_ne_flag.symm, S.mask_flag_ne_flag.symm]
    · simp [S.esc_ne_flag.symm, S.mask_esc_ne_flag.symm]
  | false =>
    rw [stuffOne_of_not_special h, List.mem_singleton]
    exact (special_eq_false_iff.mp h).1.symm

/-- **Transparency.** No flag occurs inside a stuffed body. -/
theorem flag_notMem_stuff (body : List α) : S.flag ∉ S.stuff body := by
  rw [stuff, List.mem_flatMap]
  rintro ⟨b, -, hb⟩
  exact flag_notMem_stuffOne b hb

theorem head?_stuff_ne_flag (body : List α) : (S.stuff body).head? ≠ some S.flag := by
  intro h
  exact flag_notMem_stuff body (List.mem_of_mem_head? h)

/-- Where the masked escape is no escape, a stuffed body does not end in one. -/
theorem concat_esc_ne_stuff (hmask : S.mask S.esc ≠ S.esc) (segment body : List α) :
    segment ++ [S.esc] ≠ S.stuff body := by
  intro h
  rcases List.eq_nil_or_concat body with rfl | ⟨body, b, rfl⟩
  · simp at h
  have hlast : (S.stuffOne b).getLast? = some S.esc := by
    have hne : S.stuffOne b ≠ [] := by
      rw [← List.length_pos_iff, length_stuffOne]
      omega
    have hend : (S.stuff body ++ S.stuffOne b).getLast? = some S.esc := by
      rw [← List.getLast?_concat (l := segment), h]
      simp
    rwa [List.getLast?_append_of_ne_nil _ hne] at hend
  cases hb : S.special b with
  | true =>
    rw [stuffOne_of_special hb] at hlast
    have heq : S.mask b = S.esc := by simpa using hlast
    rcases special_iff.mp hb with rfl | rfl
    · exact S.mask_esc_ne_flag (by rw [← heq, S.mask_mask])
    · exact hmask heq
  | false =>
    rw [stuffOne_of_not_special hb] at hlast
    exact (special_eq_false_iff.mp hb).2 (by simpa using hlast)

end Stuffing

/-! ## The receiver -/

/-- The receiver's state: whether a frame is open, its symbols so far, and whether the last symbol
was an escape. -/
@[ext] structure Receiver (α : Type*) where
  inFrame : Bool
  body : List α
  pending : Bool

namespace Receiver

variable {α : Type*}

/-- Right after a flag. -/
def opened : Receiver α := ⟨true, [], false⟩

/-- After a frame was dropped, until the next flag. -/
def dropped : Receiver α := ⟨false, [], false⟩

variable [DecidableEq α] (S : Stuffing α) (maxLen : ℕ)

/-- A symbol other than the flag. -/
def push (s : Receiver α) (b : α) : Receiver α :=
  if maxLen ≤ s.body.length then dropped
  else if s.pending then
    if S.special (S.mask b) then { s with body := s.body ++ [S.mask b], pending := false }
    else dropped
  else if b = S.esc then { s with pending := true }
  else { s with body := s.body ++ [b] }

/-- The frame a symbol closes, if it closes one. -/
def closes (s : Receiver α) (b : α) : Option (List α) :=
  if b = S.flag ∧ s.inFrame = true then some s.body else none

/-- The state after a symbol. -/
def next (s : Receiver α) (b : α) : Receiver α :=
  if b = S.flag then opened else push S maxLen s b

/-- The state after a sequence of symbols. -/
def run (s : Receiver α) (bs : List α) : Receiver α := bs.foldl (next S maxLen) s

variable {S maxLen}

@[simp] theorem next_flag (s : Receiver α) : next S maxLen s S.flag = opened := if_pos rfl

theorem next_of_ne {s : Receiver α} {b : α} (h : b ≠ S.flag) :
    next S maxLen s b = push S maxLen s b := if_neg h

@[simp] theorem run_nil (s : Receiver α) : run S maxLen s [] = s := rfl

@[simp] theorem run_cons (s : Receiver α) (b : α) (bs : List α) :
    run S maxLen s (b :: bs) = run S maxLen (next S maxLen s b) bs := rfl

theorem run_append (s : Receiver α) (as bs : List α) :
    run S maxLen s (as ++ bs) = run S maxLen (run S maxLen s as) bs := List.foldl_append

@[simp] theorem run_concat_flag (s : Receiver α) (bs : List α) :
    run S maxLen s (bs ++ [S.flag]) = opened := by
  rw [run_append, run_cons, run_nil, next_flag]

theorem closes_of_ne {s : Receiver α} {b : α} (h : b ≠ S.flag) : closes S s b = none :=
  if_neg fun hb ↦ h hb.1

theorem closes_eq_some_iff {s : Receiver α} {b : α} {body : List α} :
    closes S s b = some body ↔ b = S.flag ∧ s.inFrame = true ∧ s.body = body := by
  rw [closes]
  split <;> rename_i h
  · simp [h.1, h.2]
  · simp only [false_iff, reduceCtorEq]
    rintro ⟨h1, h2, -⟩
    exact h ⟨h1, h2⟩

@[simp] theorem closes_opened_flag : closes S (opened : Receiver α) S.flag = some [] := by
  simp [closes, opened]

/-! ## Feeding a stuffed body -/

theorem run_stuffOne {s : Receiver α} (b : α) (hp : s.pending = false)
    (hlen : s.body.length < maxLen) :
    run S maxLen s (S.stuffOne b) = { s with body := s.body ++ [b] } := by
  have hlen' : ¬maxLen ≤ s.body.length := by omega
  cases h : S.special b with
  | true =>
    have hmask : S.mask b ≠ S.flag := by
      rcases Stuffing.special_iff.mp h with rfl | rfl
      · exact S.mask_flag_ne_flag
      · exact S.mask_esc_ne_flag
    rw [Stuffing.stuffOne_of_special h, run_cons, run_cons, run_nil,
      next_of_ne S.esc_ne_flag, next_of_ne hmask]
    simp [push, hlen', hp, S.mask_mask, h]
  | false =>
    obtain ⟨hflag, hesc⟩ := Stuffing.special_eq_false_iff.mp h
    rw [Stuffing.stuffOne_of_not_special h, run_cons, run_nil, next_of_ne hflag]
    simp [push, hlen', hp, hesc]

theorem run_stuff {s : Receiver α} (body : List α) (hp : s.pending = false)
    (hlen : s.body.length + body.length ≤ maxLen) :
    run S maxLen s (S.stuff body) = { s with body := s.body ++ body } := by
  induction body generalizing s with
  | nil => simp
  | cons b body ih =>
    rw [List.length_cons] at hlen
    have hlen' : (s.body ++ [b]).length + body.length ≤ maxLen := by simp; omega
    rw [Stuffing.stuff_cons, run_append, run_stuffOne b hp (by omega),
      ih (s := { s with body := s.body ++ [b] }) hp hlen']
    simp

/-! ## The state after a flag-free segment -/

/-- The segment is the stuffing of `body`, cut after an escape when `pending` says so. -/
def Spells (S : Stuffing α) (segment body : List α) (pending : Bool) : Prop :=
  segment = S.stuff body ++ if pending then [S.esc] else []

theorem push_inFrame {s : Receiver α} {b : α} (h : (push S maxLen s b).inFrame = true) :
    s.inFrame = true := by
  rw [push] at h
  split at h
  · simp [dropped] at h
  · split at h
    · split at h
      · exact h
      · simp [dropped] at h
    · split at h <;> exact h

theorem push_eq_dropped_or {s : Receiver α} (b : α) (hs : s.inFrame = true) :
    push S maxLen s b = dropped ∨ (push S maxLen s b).inFrame = true := by
  rw [push]
  split
  · exact Or.inl rfl
  · split
    · split
      · exact Or.inr hs
      · exact Or.inl rfl
    · split <;> exact Or.inr hs

/-- An escape is left pending only where there is room for one more symbol. -/
theorem length_lt_of_pending_next {s : Receiver α} {b : α}
    (h : (next S maxLen s b).pending = true) : (next S maxLen s b).body.length < maxLen := by
  rw [next] at h ⊢
  split at h
  · exact absurd h Bool.false_ne_true
  rename_i hb
  rw [if_neg hb]
  rw [push] at h ⊢
  split at h
  · exact absurd h Bool.false_ne_true
  rename_i hlen
  rw [if_neg hlen]
  split at h
  · split at h <;> exact absurd h Bool.false_ne_true
  rename_i hpend
  rw [if_neg hpend]
  split at h
  · rename_i hesc
    rw [if_pos hesc]
    exact Nat.lt_of_not_le hlen
  · exact absurd h hpend

theorem length_lt_of_pending_run {bs : List α}
    (h : (run S maxLen dropped bs).pending = true) :
    (run S maxLen dropped bs).body.length < maxLen := by
  rcases List.eq_nil_or_concat' bs with rfl | ⟨bs, b, rfl⟩
  · exact absurd h Bool.false_ne_true
  · rw [run_append, run_cons, run_nil] at h ⊢
    exact length_lt_of_pending_next h

theorem spells_push {s : Receiver α} {segment : List α} {b : α} (hb : b ≠ S.flag)
    (hs : Spells S segment s.body s.pending) (h : (push S maxLen s b).inFrame = true) :
    Spells S (segment ++ [b]) (push S maxLen s b).body (push S maxLen s b).pending ∧
      (push S maxLen s b).body.length ≤ maxLen ∧
      ((push S maxLen s b).pending = true → (push S maxLen s b).body.length < maxLen) := by
  rw [Spells] at hs ⊢
  rw [push] at h ⊢
  split at h
  · simp [dropped] at h
  · rename_i hlen
    rw [if_neg hlen]
    cases hp : s.pending with
    | true =>
      rw [hp] at hs h
      -- after an escape only a masked special byte is taken
      cases hm : S.special (S.mask b) with
      | true =>
        simp only [↓reduceIte]
        refine ⟨?_, by simp; omega, by simp⟩
        rw [hs, Stuffing.stuff_append, Stuffing.stuff_cons, Stuffing.stuffOne_of_special hm,
          S.mask_mask]
        simp
      | false => simp [hm, dropped] at h
    | false =>
      rw [hp] at hs
      simp only [Bool.false_eq_true, ↓reduceIte] at hs ⊢
      by_cases hesc : b = S.esc
      · rw [if_pos hesc]
        refine ⟨?_, by simp; omega, by simp; omega⟩
        rw [hs, hesc]
        simp
      · rw [if_neg hesc]
        refine ⟨?_, by simp; omega, by simp⟩
        rw [hs, Stuffing.stuff_append, Stuffing.stuff_cons,
          Stuffing.stuffOne_of_not_special (Stuffing.special_eq_false_iff.mpr ⟨hb, hesc⟩)]
        simp

theorem spells_run {segment : List α} (hseg : S.flag ∉ segment)
    (h : (run S maxLen opened segment).inFrame = true) :
    Spells S segment (run S maxLen opened segment).body (run S maxLen opened segment).pending ∧
      (run S maxLen opened segment).body.length ≤ maxLen ∧
      ((run S maxLen opened segment).pending = true →
        (run S maxLen opened segment).body.length < maxLen) := by
  induction segment using List.reverseRecOn with
  | nil => simp [Spells, opened]
  | append_singleton segment b ih =>
    have hb : b ≠ S.flag := fun hb ↦ hseg (by simp [hb])
    have hseg' : S.flag ∉ segment := fun hm ↦ hseg (List.mem_append_left _ hm)
    rw [run_append, run_cons, run_nil, next_of_ne hb] at h ⊢
    exact spells_push hb (ih hseg' (push_inFrame h)).1 h

/-- **The frame left open by a flag-free segment**, computed from the segment alone. -/
theorem run_iff_of_flag_free {segment body : List α} {pending : Bool} (hseg : S.flag ∉ segment) :
    run S maxLen opened segment = ⟨true, body, pending⟩ ↔
      Spells S segment body pending ∧ body.length ≤ maxLen ∧
        (pending = true → body.length < maxLen) := by
  constructor
  · intro h
    have hin : (run S maxLen opened segment).inFrame = true := by rw [h]
    have hs := spells_run hseg hin
    rwa [h] at hs
  · rintro ⟨hs, hlen, hpend⟩
    rw [hs, run_append, run_stuff body rfl (by simpa [opened] using hlen)]
    cases pending with
    | false => simp [opened]
    | true =>
      have hlt : ¬maxLen ≤ body.length := by have := hpend rfl; omega
      rw [if_pos rfl, run_cons, run_nil, next_of_ne S.esc_ne_flag]
      simp [push, opened, hlt]

/-- **The frame grammar.** The flag after a flag-free segment closes a frame with body `body`
exactly when the segment spells it, possibly with an escape left dangling at the end. -/
theorem closes_run_iff {segment body : List α} (hseg : S.flag ∉ segment) :
    closes S (run S maxLen opened segment) S.flag = some body ↔
      ∃ pending, Spells S segment body pending ∧ body.length ≤ maxLen ∧
        (pending = true → body.length < maxLen) := by
  rw [closes_eq_some_iff]
  constructor
  · rintro ⟨-, hin, rfl⟩
    exact ⟨_, spells_run hseg hin⟩
  · rintro ⟨pending, h⟩
    rw [(run_iff_of_flag_free hseg).mpr h]
    exact ⟨rfl, rfl, rfl⟩

/-- Without a dangling escape the body is determined by the segment being its stuffing. -/
theorem closes_run_iff_stuff {segment body : List α} (hseg : S.flag ∉ segment)
    (hlast : segment.getLast? ≠ some S.esc) :
    closes S (run S maxLen opened segment) S.flag = some body ↔
      segment = S.stuff body ∧ body.length ≤ maxLen := by
  rw [closes_run_iff hseg]
  constructor
  · rintro ⟨pending, hs, hlen, -⟩
    cases pending with
    | false => exact ⟨by simpa [Spells] using hs, hlen⟩
    | true => exact absurd (by rw [hs]; simp) hlast
  · rintro ⟨hs, hlen⟩
    exact ⟨false, by simpa [Spells] using hs, hlen, by simp⟩

/-- **Aborted frames.** A flag right after an escape closes the frame spelled by what came before
the escape, if there is room for one more symbol. -/
theorem closes_run_concat_esc_iff (hmask : S.mask S.esc ≠ S.esc) {segment body : List α}
    (hseg : S.flag ∉ segment) :
    closes S (run S maxLen opened (segment ++ [S.esc])) S.flag = some body ↔
      segment = S.stuff body ∧ body.length < maxLen := by
  have hfree : S.flag ∉ segment ++ [S.esc] := by
    rw [List.mem_append, not_or, List.mem_singleton]
    exact ⟨hseg, S.esc_ne_flag.symm⟩
  rw [closes_run_iff hfree]
  constructor
  · rintro ⟨pending, hspells, -, hlt⟩
    cases pending with
    | true => exact ⟨List.append_cancel_right hspells, hlt rfl⟩
    | false =>
      rw [Spells, if_neg Bool.false_ne_true, List.append_nil] at hspells
      exact absurd hspells (Stuffing.concat_esc_ne_stuff hmask segment body)
  · rintro ⟨rfl, hlt⟩
    exact ⟨true, rfl, Nat.le_of_lt hlt, fun _ ↦ hlt⟩

theorem inFrame_run_of_flag_free {s : Receiver α} {bs : List α} (hs : s.inFrame = false)
    (hbs : S.flag ∉ bs) : (run S maxLen s bs).inFrame = false := by
  induction bs generalizing s with
  | nil => exact hs
  | cons b bs ih =>
    rw [List.mem_cons, not_or] at hbs
    rw [run_cons, next_of_ne (Ne.symm hbs.1)]
    refine ih ?_ hbs.2
    rw [← Bool.not_eq_true] at hs ⊢
    exact fun h ↦ hs (push_inFrame h)

end Receiver

/-! ## Frames of a byte sequence -/

section Frame

variable {α : Type*} [DecidableEq α] {S : Stuffing α} {maxLen : ℕ}

/-- The sequence ends in a frame between two flags, with this body and perhaps an escape left
dangling in front of the closing flag. -/
def EndsInFrame (S : Stuffing α) (bs body : List α) (pending : Bool) : Prop :=
  ∃ history segment, bs = history ++ S.flag :: (segment ++ [S.flag]) ∧ S.flag ∉ segment ∧
    Receiver.Spells S segment body pending

theorem exists_last_flag {bs : List α} (h : S.flag ∈ bs) :
    ∃ history segment, bs = history ++ S.flag :: segment ∧ S.flag ∉ segment := by
  induction bs with
  | nil => exact absurd h List.not_mem_nil
  | cons b bs ih =>
    by_cases hbs : S.flag ∈ bs
    · obtain ⟨history, segment, rfl, hseg⟩ := ih hbs
      exact ⟨b :: history, segment, rfl, hseg⟩
    · obtain rfl := (List.mem_cons.mp h).resolve_right hbs
      exact ⟨[], bs, rfl, hbs⟩

theorem EndsInFrame.run_dropLast {bs body : List α} {pending : Bool}
    (h : EndsInFrame S bs body pending) (hlen : body.length < maxLen) :
    Receiver.run S maxLen Receiver.dropped bs.dropLast = ⟨true, body, pending⟩ := by
  obtain ⟨history, segment, rfl, hseg, hspells⟩ := h
  have hdrop : (history ++ S.flag :: (segment ++ [S.flag])).dropLast
      = history ++ S.flag :: segment := by
    rw [← List.cons_append, ← List.append_assoc, List.dropLast_concat]
  rw [hdrop, Receiver.run_append, Receiver.run_cons, Receiver.next_flag]
  exact (Receiver.run_iff_of_flag_free hseg).mpr ⟨hspells, Nat.le_of_lt hlen, fun _ ↦ hlen⟩

theorem EndsInFrame.unique {bs body body' : List α} {pending pending' : Bool}
    (h : EndsInFrame S bs body pending) (h' : EndsInFrame S bs body' pending') :
    body = body' ∧ pending = pending' := by
  have hrun : Receiver.run S (body.length + body'.length + 1) Receiver.dropped bs.dropLast
      = ⟨true, body, pending⟩ := h.run_dropLast (by omega)
  rw [h'.run_dropLast (by omega)] at hrun
  obtain ⟨-, hbody, hpending⟩ := Receiver.mk.inj hrun
  exact ⟨hbody.symm, hpending.symm⟩

/-- **What a receiver that starts outside a frame closes** are the frames of the sequence it was
fed, up to the length limit, where a dangling escape counts as a symbol. -/
theorem closes_run_dropped_iff {bs body : List α} {b : α} :
    Receiver.closes S (Receiver.run S maxLen Receiver.dropped bs) b = some body ↔
      ∃ pending, EndsInFrame S (bs ++ [b]) body pending ∧
        body.length + (if pending then 1 else 0) ≤ maxLen := by
  have hfit (pending : Bool) : body.length + (if pending then 1 else 0) ≤ maxLen ↔
      body.length ≤ maxLen ∧ (pending = true → body.length < maxLen) := by
    cases pending with
    | false => simp
    | true =>
      rw [if_pos rfl]
      exact ⟨fun h ↦ ⟨by omega, fun _ ↦ h⟩, fun h ↦ h.2 rfl⟩
  have hrun (history segment : List α) :
      Receiver.run S maxLen Receiver.dropped (history ++ S.flag :: segment)
        = Receiver.run S maxLen Receiver.opened segment := by
    rw [Receiver.run_append, Receiver.run_cons, Receiver.next_flag]
  constructor
  · intro h
    obtain ⟨rfl, hin, -⟩ := Receiver.closes_eq_some_iff.mp h
    have hmem : S.flag ∈ bs := by
      by_contra hbs
      rw [Receiver.inFrame_run_of_flag_free rfl hbs] at hin
      exact Bool.false_ne_true hin
    obtain ⟨history, segment, rfl, hseg⟩ := exists_last_flag hmem
    rw [hrun, Receiver.closes_run_iff hseg] at h
    obtain ⟨pending, hspells, hlen⟩ := h
    exact ⟨pending, ⟨history, segment, by simp, hseg, hspells⟩, (hfit pending).mpr hlen⟩
  · rintro ⟨pending, ⟨history, segment, hbs, hseg, hspells⟩, hlen⟩
    rw [← List.cons_append, ← List.append_assoc] at hbs
    obtain ⟨rfl, hb⟩ := List.append_inj' hbs rfl
    obtain rfl : b = S.flag := List.singleton_inj.mp hb
    rw [hrun, Receiver.closes_run_iff hseg]
    exact ⟨pending, hspells, (hfit pending).mp hlen⟩

/-- **When a frame is open**, of a receiver that starts outside one: a flag would close a frame. -/
theorem inFrame_run_dropped_iff {bs : List α} :
    (Receiver.run S maxLen Receiver.dropped bs).inFrame = true ↔
      ∃ body pending, EndsInFrame S (bs ++ [S.flag]) body pending ∧
        body.length + (if pending then 1 else 0) ≤ maxLen := by
  simp only [← closes_run_dropped_iff, Receiver.closes_eq_some_iff]
  constructor
  · intro h
    exact ⟨_, trivial, h, rfl⟩
  · rintro ⟨_, -, h, -⟩
    exact h

theorem run_dropped_eq_dropped_or {bs : List α}
    (h : ∀ pre b post, bs = pre ++ b :: post → b ≠ S.flag →
      (Receiver.run S maxLen Receiver.dropped pre).inFrame = true) :
    Receiver.run S maxLen Receiver.dropped bs = Receiver.dropped ∨
      (Receiver.run S maxLen Receiver.dropped bs).inFrame = true := by
  rcases List.eq_nil_or_concat' bs with rfl | ⟨bs, b, rfl⟩
  · exact Or.inl rfl
  · by_cases hb : b = S.flag
    · rw [hb, Receiver.run_concat_flag]
      exact Or.inr rfl
    · rw [Receiver.run_append, Receiver.run_cons, Receiver.run_nil, Receiver.next_of_ne hb]
      exact Receiver.push_eq_dropped_or b (h bs b [] rfl hb)

end Frame

/-! ## Streams of frames -/

namespace Receiver

variable {α : Type*} [DecidableEq α] (S : Stuffing α) (maxLen : ℕ)

/-- The frames that a sequence closes, in order. -/
def frames (s : Receiver α) : List α → List (List α)
  | [] => []
  | b :: bs => (closes S s b).toList ++ frames (next S maxLen s b) bs

variable {S maxLen}

@[simp] theorem frames_nil (s : Receiver α) : frames S maxLen s [] = [] := rfl

theorem frames_cons (s : Receiver α) (b : α) (bs : List α) :
    frames S maxLen s (b :: bs) = (closes S s b).toList ++ frames S maxLen (next S maxLen s b) bs :=
  rfl

theorem frames_append (s : Receiver α) (as bs : List α) :
    frames S maxLen s (as ++ bs)
      = frames S maxLen s as ++ frames S maxLen (run S maxLen s as) bs := by
  induction as generalizing s with
  | nil => rfl
  | cons a as ih => rw [List.cons_append, frames_cons, ih, ← List.append_assoc]; rfl

theorem frames_of_flag_free {s : Receiver α} {bs : List α} (hbs : S.flag ∉ bs) :
    frames S maxLen s bs = [] := by
  induction bs generalizing s with
  | nil => rfl
  | cons b bs ih =>
    rw [List.mem_cons, not_or] at hbs
    rw [frames_cons, closes_of_ne (Ne.symm hbs.1), ih hbs.2]
    rfl

theorem frames_prefix {s : Receiver α} {as bs : List α} (h : as <+: bs) :
    frames S maxLen s as <+: frames S maxLen s bs := by
  obtain ⟨rest, rfl⟩ := h
  rw [frames_append]
  exact List.prefix_append _ _

end Receiver

/-- A frame on the wire: an optional flag, the stuffed body, and a flag. -/
def Stuffing.frame {α : Type*} [DecidableEq α] (S : Stuffing α) (opening : Bool) (body : List α) :
    List α :=
  (if opening then [S.flag] else []) ++ S.stuff body ++ [S.flag]

section Streams

variable {α : Type*} [DecidableEq α] {S : Stuffing α} {maxLen : ℕ}

open Receiver
open scoped List

/-- Between frames a receiver is outside any frame or has just seen a flag. -/
def Receiver.Between (s : Receiver α) : Prop := s.inFrame = false ∨ s = opened

private theorem frames_closing {s : Receiver α} (hs : s.Between) {body : List α}
    (hlen : body.length ≤ maxLen) :
    frames S maxLen s (S.stuff body ++ [S.flag]) <+ [body] := by
  rw [frames_append, frames_of_flag_free (Stuffing.flag_notMem_stuff body), List.nil_append,
    frames_cons, frames_nil, List.append_nil]
  rcases hs with hs | rfl
  · rw [closes, inFrame_run_of_flag_free hs (Stuffing.flag_notMem_stuff body), if_neg (by simp)]
    exact List.nil_sublist _
  · rw [run_stuff body rfl (by simpa [opened] using hlen)]
    simp [closes, opened]

theorem filter_frames_frame_sublist {s : Receiver α} (hs : s.Between) (opening : Bool)
    {body : List α} (hlen : body.length ≤ maxLen) :
    (frames S maxLen s (S.frame opening body)).filter (· ≠ []) <+ [body] := by
  rw [Stuffing.frame]
  cases opening with
  | false => exact List.filter_sublist.trans (frames_closing hs hlen)
  | true =>
    rw [if_pos rfl, List.append_assoc, List.singleton_append, frames_cons, next_flag,
      List.filter_append]
    have hnone : (closes S s S.flag).toList.filter (· ≠ []) = [] := by
      rcases hs with hs | rfl
      · simp [closes, hs]
      · simp
    rw [hnone, List.nil_append]
    exact List.filter_sublist.trans (frames_closing (Or.inr rfl) hlen)

/-- **What a stream of frames closes** is some of its frames, in order, and empty ones, when the
receiver starts between frames. -/
theorem filter_frames_stream_sublist {s : Receiver α} (hs : s.Between)
    (stream : List (Bool × List α)) (hlen : ∀ q ∈ stream, q.2.length ≤ maxLen) :
    (frames S maxLen s (stream.flatMap fun q ↦ S.frame q.1 q.2)).filter (· ≠ [])
      <+ stream.map Prod.snd := by
  induction stream generalizing s with
  | nil => exact List.Sublist.refl _
  | cons q stream ih =>
    rw [List.flatMap_cons, frames_append, List.filter_append, List.map_cons]
    have hbetween : (run S maxLen s (S.frame q.1 q.2)).Between := by
      rw [Stuffing.frame, run_concat_flag]
      exact Or.inr rfl
    exact (filter_frames_frame_sublist hs q.1 (hlen q List.mem_cons_self)).append
      (ih hbetween fun q' hq' ↦ hlen q' (List.mem_cons_of_mem q hq'))

end Streams

end Framing

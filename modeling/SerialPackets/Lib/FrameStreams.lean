import SerialPackets.Lib.Framing

/-!
# Streams of frames

What a receiver makes of a whole stream of frames. Where nothing is damaged it closes every frame
of the stream, in order, and nothing else but empty frames (`filter_frames_stream`), so that the
frames can be read off the stream again (`stream_injective`). Where something is damaged, the
damage ends with the next flag: what a receiver closes after a flag does not depend on what it was
fed before (`frames_append_flag_cons`).

A single damaged symbol, if no special symbol is involved, changes one symbol of the body or drops
the frame; it neither splits a frame nor joins two of them (`stuff_damaged`).
-/

namespace Framing

variable {α : Type*} [DecidableEq α] {S : Stuffing α} {maxLen : ℕ}

open Receiver
open scoped List

namespace Receiver

/-! ## Flags -/

theorem frames_flag_cons (s : Receiver α) (bs : List α) :
    frames S maxLen s (S.flag :: bs)
      = (closes S s S.flag).toList ++ frames S maxLen opened bs := by
  rw [frames_cons, next_flag]

theorem length_frames_le_count (s : Receiver α) (bs : List α) :
    (frames S maxLen s bs).length ≤ bs.count S.flag := by
  induction bs generalizing s with
  | nil => exact Nat.le_refl 0
  | cons b bs ih =>
    rw [frames_cons, List.length_append]
    by_cases hb : b = S.flag
    · have hone : (closes S s b).toList.length ≤ 1 := by
        cases closes S s b <;> simp
      rw [hb, List.count_cons_self]
      have hrest := ih (next S maxLen s S.flag)
      rw [hb] at hone
      omega
    · rw [closes_of_ne hb, List.count_cons_of_ne hb]
      simpa using ih _

/-! ## Frames -/

theorem run_frame (s : Receiver α) (opening : Bool) (body : List α) :
    run S maxLen s (S.frame opening body) = opened := by
  rw [Stuffing.frame, run_concat_flag]

theorem frames_frame (opening : Bool) {body : List α} (hlen : body.length ≤ maxLen) :
    frames S maxLen opened (S.frame opening body)
      = (if opening then [[]] else []) ++ [body] := by
  have hbody : frames S maxLen opened (S.stuff body ++ [S.flag]) = [body] := by
    rw [frames_append, frames_of_flag_free (Stuffing.flag_notMem_stuff body),
      run_stuff body rfl (by simpa [opened] using hlen)]
    simp [frames_cons, closes, opened]
  rw [Stuffing.frame]
  cases opening with
  | false => exact hbody
  | true =>
    rw [if_pos rfl, if_pos rfl, List.append_assoc, List.singleton_append, frames_flag_cons, hbody,
      closes_opened_flag]
    rfl

theorem run_stream (fs : List (Bool × List α)) :
    run S maxLen opened (fs.flatMap fun q ↦ S.frame q.1 q.2) = opened := by
  induction fs with
  | nil => rfl
  | cons q fs ih => rw [List.flatMap_cons, run_append, run_frame, ih]

/-- **A stream of frames right after a flag** closes its frames, and an empty one for each flag that
opens a frame. -/
theorem frames_stream {fs : List (Bool × List α)} (hlen : ∀ q ∈ fs, q.2.length ≤ maxLen) :
    frames S maxLen opened (fs.flatMap fun q ↦ S.frame q.1 q.2)
      = fs.flatMap fun q ↦ (if q.1 then [[]] else []) ++ [q.2] := by
  induction fs with
  | nil => rfl
  | cons q fs ih =>
    rw [List.flatMap_cons, List.flatMap_cons, frames_append, run_frame,
      frames_frame q.1 (hlen q List.mem_cons_self),
      ih fun q' hq' ↦ hlen q' (List.mem_cons_of_mem q hq')]

omit [DecidableEq α] in
theorem filter_flatMap_frames {fs : List (Bool × List α)} (hne : ∀ q ∈ fs, q.2 ≠ []) :
    (fs.flatMap fun q ↦ (if q.1 then [[]] else []) ++ [q.2]).filter (· ≠ [])
      = fs.map Prod.snd := by
  induction fs with
  | nil => rfl
  | cons q fs ih =>
    rw [List.flatMap_cons, List.filter_append, ih fun q' hq' ↦ hne q' (List.mem_cons_of_mem q hq'),
      List.map_cons]
    have hq := hne q List.mem_cons_self
    cases q.1 <;> simp [hq]

/-- **Nothing is lost** on a stream of frames that are not empty, for a receiver that has just seen
a flag, or is outside a frame and gets a flag first. -/
theorem filter_frames_stream {s : Receiver α} {fs : List (Bool × List α)}
    (hstart : s = opened ∨ s.inFrame = false ∧ ∀ q ∈ fs.head?, q.1 = true)
    (hlen : ∀ q ∈ fs, q.2.length ≤ maxLen) (hne : ∀ q ∈ fs, q.2 ≠ []) :
    (frames S maxLen s (fs.flatMap fun q ↦ S.frame q.1 q.2)).filter (· ≠ [])
      = fs.map Prod.snd := by
  have hopened := filter_flatMap_frames hne
  rw [← frames_stream (S := S) hlen] at hopened
  rcases hstart with rfl | ⟨hs, hflag⟩
  · exact hopened
  · obtain _ | ⟨⟨opening, body⟩, fs⟩ := fs
    · rfl
    · obtain rfl : opening = true := hflag _ rfl
      -- the flag that comes first makes up for the receiver being outside a frame
      have hclosed : closes S s S.flag = none := by simp [closes, hs]
      rw [List.flatMap_cons, Stuffing.frame, if_pos rfl, List.append_assoc, List.append_assoc,
        List.singleton_append, frames_flag_cons] at hopened ⊢
      rw [hclosed]
      rw [closes_opened_flag] at hopened
      simpa using hopened

end Receiver

/-! ## Reading a stream -/

omit [DecidableEq α] in
private theorem eq_of_flatMap_frames_eq {fs gs : List (Bool × List α)}
    (hfs : ∀ q ∈ fs, q.2 ≠ []) (hgs : ∀ q ∈ gs, q.2 ≠ [])
    (h : (fs.flatMap fun q ↦ (if q.1 then [[]] else []) ++ [q.2])
      = gs.flatMap fun q ↦ (if q.1 then [[]] else []) ++ [q.2]) : fs = gs := by
  induction fs generalizing gs with
  | nil =>
    obtain _ | ⟨q, gs⟩ := gs
    · rfl
    · rw [List.flatMap_nil, List.flatMap_cons] at h
      simp at h
  | cons q fs ih =>
    obtain _ | ⟨r, gs⟩ := gs
    · rw [List.flatMap_nil, List.flatMap_cons] at h
      simp at h
    · obtain ⟨opening, body⟩ := q
      obtain ⟨opening', body'⟩ := r
      have hbody := hfs _ List.mem_cons_self
      have hbody' := hgs _ List.mem_cons_self
      have hrest := @ih gs (fun q' hq' ↦ hfs q' (List.mem_cons_of_mem _ hq'))
        fun q' hq' ↦ hgs q' (List.mem_cons_of_mem _ hq')
      rw [List.flatMap_cons, List.flatMap_cons] at h
      -- an empty frame in front says that the flag was doubled
      cases opening <;> cases opening' <;> simp_all

/-- **A stream determines its frames**, and which of them have a flag of their own in front, if none
of them is empty. -/
theorem Stuffing.stream_injective {fs gs : List (Bool × List α)} (hfs : ∀ q ∈ fs, q.2 ≠ [])
    (hgs : ∀ q ∈ gs, q.2 ≠ [])
    (h : (fs.flatMap fun q ↦ S.frame q.1 q.2) = gs.flatMap fun q ↦ S.frame q.1 q.2) : fs = gs := by
  obtain ⟨maxLen, hlen⟩ : ∃ maxLen, ∀ q ∈ fs ++ gs, q.2.length ≤ maxLen := by
    refine ⟨((fs ++ gs).map Prod.snd).flatten.length, fun q hq ↦ ?_⟩
    exact (List.sublist_flatten_of_mem (List.mem_map_of_mem hq)).length_le
  refine eq_of_flatMap_frames_eq hfs hgs ?_
  rw [← frames_stream (S := S) fun q hq ↦ hlen q (List.mem_append_left _ hq),
    ← frames_stream (S := S) fun q hq ↦ hlen q (List.mem_append_right _ hq), h]

/-! ## One damaged symbol -/

theorem Receiver.inFrame_run_esc_of_not_special {s : Receiver α} {w : α} (hs : s.pending = false)
    (hflag : w ≠ S.flag) (hw : S.special (S.mask w) = false) :
    (run S maxLen s [S.esc, w]).inFrame = false := by
  rw [run_cons, run_cons, run_nil, next_of_ne S.esc_ne_flag, next_of_ne hflag]
  rw [← Bool.not_eq_true]
  intro h
  by_cases hlen : maxLen ≤ s.body.length
  · have hdropped : push S maxLen s S.esc = dropped := if_pos hlen
    rw [hdropped] at h
    exact absurd (push_inFrame h) Bool.false_ne_true
  · have hpending : push S maxLen s S.esc = { s with pending := true } := by
      rw [push, if_neg hlen, if_neg (by rw [hs]; exact Bool.false_ne_true), if_pos rfl]
    rw [hpending, push, if_neg hlen, if_pos rfl, hw, if_neg Bool.false_ne_true] at h
    exact absurd h Bool.false_ne_true

theorem Receiver.pending_run_stuff (hmask : S.mask S.esc ≠ S.esc) {body : List α}
    (h : (run S maxLen opened (S.stuff body)).inFrame = true) :
    (run S maxLen opened (S.stuff body)).pending = false := by
  obtain ⟨hspells, -⟩ := spells_run (Stuffing.flag_notMem_stuff body) h
  rw [← Bool.not_eq_true]
  intro hpending
  rw [Spells, if_pos hpending] at hspells
  exact Stuffing.concat_esc_ne_stuff hmask _ body hspells.symm

theorem Stuffing.exists_of_stuff_eq {body pre post : List α} {w : α}
    (h : S.stuff body = pre ++ w :: post) :
    ∃ before b after x y, body = before ++ b :: after ∧ S.stuffOne b = x ++ w :: y ∧
      pre = S.stuff before ++ x ∧ post = y ++ S.stuff after := by
  induction body generalizing pre with
  | nil => exact absurd h.symm (by simp)
  | cons b body ih =>
    have hlater {pre' : List α} (hpre : pre = S.stuffOne b ++ pre')
        (hbody : S.stuff body = pre' ++ w :: post) :
        ∃ before b' after x y, b :: body = before ++ b' :: after ∧ S.stuffOne b' = x ++ w :: y ∧
          pre = S.stuff before ++ x ∧ post = y ++ S.stuff after := by
      obtain ⟨before, b', after, x, y, rfl, hb', hx, hy⟩ := ih hbody
      refine ⟨b :: before, b', after, x, y, rfl, hb', ?_, hy⟩
      rw [hpre, hx, Stuffing.stuff_cons, List.append_assoc]
    rw [Stuffing.stuff_cons, List.append_eq_append_iff] at h
    rcases h with ⟨pre', hpre, hbody⟩ | ⟨c, hb, hc⟩
    · exact hlater hpre hbody
    · obtain _ | ⟨w', y⟩ := c
      · rw [List.append_nil] at hb
        exact @hlater [] (by rw [hb, List.append_nil]) hc.symm
      · obtain ⟨rfl, rfl⟩ := List.cons.inj hc
        exact ⟨[], b, body, pre, y, rfl, hb, rfl, rfl⟩

/-- **One damaged symbol.** Where a symbol of a stuffed body that is not special becomes another one
that is not special either, the result is the stuffing of a body that differs in one symbol, or it
drops the frame. -/
theorem Stuffing.stuff_damaged (hmask : S.mask S.esc ≠ S.esc) {body pre post : List α} {w w' : α}
    (h : S.stuff body = pre ++ w :: post) (hw : S.special w = false) (hw' : S.special w' = false)
    (hne : w ≠ w') :
    (∃ before b b' after, body = before ++ b :: after ∧ b ≠ b' ∧
        pre ++ w' :: post = S.stuff (before ++ b' :: after)) ∨
      ∀ maxLen, (run S maxLen opened (pre ++ w' :: post)).inFrame = false := by
  obtain ⟨before, b, after, x, y, hbody, hb, rfl, rfl⟩ := Stuffing.exists_of_stuff_eq h
  obtain ⟨hflag', -⟩ := Stuffing.special_eq_false_iff.mp hw'
  cases hspecial : S.special b with
  | false =>
    rw [Stuffing.stuffOne_of_not_special hspecial] at hb
    obtain ⟨rfl, rfl, rfl⟩ : x = [] ∧ b = w ∧ y = [] := by
      obtain _ | ⟨a, x⟩ := x
      · simpa [eq_comm] using hb
      · simp at hb
    refine Or.inl ⟨before, b, w', after, hbody, hne, ?_⟩
    rw [Stuffing.stuff_append, Stuffing.stuff_cons, Stuffing.stuffOne_of_not_special hw']
    simp
  | true =>
    rw [Stuffing.stuffOne_of_special hspecial] at hb
    -- the escape is special, so that it is the masked symbol which is damaged
    obtain ⟨rfl, rfl, rfl⟩ : x = [S.esc] ∧ w = S.mask b ∧ y = [] := by
      match x, hb with
      | [], hb =>
        obtain ⟨rfl, -⟩ := List.cons.inj hb
        exact absurd (Stuffing.special_esc.symm.trans hw) Bool.true_eq_false.mp
      | [a], hb => simpa [eq_comm] using hb
      | a :: a' :: x, hb => simp at hb
    cases hmasked : S.special (S.mask w') with
    | true =>
      refine Or.inl ⟨before, b, S.mask w', after, hbody, ?_, ?_⟩
      · rintro rfl
        exact hne (S.mask_mask w')
      · rw [Stuffing.stuff_append, Stuffing.stuff_cons, Stuffing.stuffOne_of_special hmasked,
          S.mask_mask]
        simp
    | false =>
      refine Or.inr fun maxLen ↦ ?_
      have hsplit : S.stuff before ++ [S.esc] ++ w' :: ([] ++ S.stuff after)
          = S.stuff before ++ ([S.esc, w'] ++ S.stuff after) := by simp
      rw [hsplit, run_append, run_append]
      refine inFrame_run_of_flag_free ?_ (Stuffing.flag_notMem_stuff after)
      cases hin : (run S maxLen opened (S.stuff before)).inFrame with
      | true =>
        exact inFrame_run_esc_of_not_special (pending_run_stuff hmask hin) hflag' hmasked
      | false =>
        refine inFrame_run_of_flag_free hin ?_
        simp [S.esc_ne_flag.symm, Ne.symm hflag']

end Framing

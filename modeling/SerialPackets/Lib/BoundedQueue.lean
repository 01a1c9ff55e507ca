import Mathlib.Algebra.Ring.Nat
import Mathlib.Data.List.Basic
import Mathlib.Data.List.Induction

/-!
# Bounded queues with sticky errors

A first-in first-out queue of limited size whose items stay in place when they are taken: a cursor
moves over them. Putting in more than there is room for, or taking more than is left, does nothing
but raise a flag, and a raised flag makes all later puts, or takes, do nothing either.

The laws (`run_puts`, `run_takes`) give the items and the cursor of a queue from the history of
operations alone: what was put in, or asked for, up to the first operation that could not be served.
-/

/-! ## Up to the first bad element -/

/-- `good` is the part of `xs` in front of the first element that is bad, given those before it. -/
structure UpToFirst {α : Type*} (Bad : List α → α → Prop) (xs good : List α) : Prop where
  prefix_all : good <+: xs
  not_bad : ∀ before x after, good = before ++ x :: after → ¬Bad before x
  bad : ∀ x after, xs = good ++ x :: after → Bad good x

namespace UpToFirst

variable {α : Type*} {Bad : List α → α → Prop} {xs good : List α} {x : α}

theorem nil : UpToFirst Bad [] [] :=
  ⟨List.prefix_refl [], fun _ _ _ h ↦ by simp at h, fun _ _ h ↦ by simp at h⟩

theorem concat_of_ne (h : UpToFirst Bad xs good) (hne : good ≠ xs) :
    UpToFirst Bad (xs ++ [x]) good := by
  obtain ⟨rest, hrest⟩ := h.prefix_all
  have hne' : rest ≠ [] := by
    rintro rfl
    exact hne (by rw [← hrest, List.append_nil])
  obtain ⟨y, ys, rfl⟩ := List.exists_cons_of_ne_nil hne'
  refine ⟨h.prefix_all.trans (List.prefix_append xs [x]), h.not_bad, fun z after hz ↦ ?_⟩
  rw [← hrest, List.append_assoc] at hz
  have hhead := List.append_cancel_left hz
  rw [List.cons_append, List.cons.injEq] at hhead
  rw [← hhead.1]
  exact h.bad y ys hrest.symm

theorem ne_concat (h : UpToFirst Bad xs good) : good ≠ xs ++ [x] := by
  rintro rfl
  have hlen := h.prefix_all.length_le
  rw [List.length_append, List.length_singleton] at hlen
  omega

theorem concat_of_bad (h : UpToFirst Bad xs xs) (hx : Bad xs x) : UpToFirst Bad (xs ++ [x]) xs := by
  refine ⟨List.prefix_append xs [x], h.not_bad, fun z after hz ↦ ?_⟩
  have hhead := List.append_cancel_left hz
  rw [List.cons.injEq] at hhead
  rwa [← hhead.1]

theorem concat_of_not_bad (h : UpToFirst Bad xs xs) (hx : ¬Bad xs x) :
    UpToFirst Bad (xs ++ [x]) (xs ++ [x]) := by
  refine ⟨List.prefix_refl _, fun before y after hy ↦ ?_, fun z after hz ↦ ?_⟩
  · rcases List.eq_nil_or_concat' after with rfl | ⟨after, z, rfl⟩
    · obtain ⟨rfl, hyx⟩ := List.append_inj' hy rfl
      rw [List.singleton_inj.mp hyx] at hx
      exact hx
    · rw [← List.cons_append, ← List.append_assoc] at hy
      exact h.not_bad before y after (List.append_inj' hy rfl).1
  · have hlen := congrArg List.length hz
    simp at hlen

theorem exists_of_map {β : Type*} {f : β → α} {ys : List β} (h : UpToFirst Bad (ys.map f) good) :
    ∃ kept, kept.map f = good ∧ (kept = ys ↔ good = ys.map f) ∧
      UpToFirst (fun before y ↦ Bad (before.map f) (f y)) ys kept := by
  obtain ⟨rest, hrest⟩ := h.prefix_all
  obtain ⟨kept, tail, rfl, rfl, rfl⟩ := List.map_eq_append_iff.mp hrest.symm
  refine ⟨kept, rfl, ?_, List.prefix_append kept tail, ?_, ?_⟩
  · constructor
    · intro heq
      rw [← heq]
    · intro heq
      have hlen := congrArg List.length heq
      rw [List.length_map, List.length_map, List.length_append] at hlen
      rw [List.length_eq_zero_iff.mp (show tail.length = 0 by omega), List.append_nil]
  · rintro before y after rfl
    exact h.not_bad _ _ (after.map f) (by simp)
  · intro y after hy
    exact h.bad _ (after.map f) (by rw [hy]; simp)

end UpToFirst

/-! ## The queue -/

/-- The items put in and kept, how many of them were taken, and whether a put or a take failed. -/
structure BoundedQueue (α : Type*) where
  items : List α
  cursor : ℕ
  overflow : Bool
  underflow : Bool

namespace BoundedQueue

variable {α : Type*}

/-- The operations. Rewinding makes all items available again. -/
inductive Op (α : Type*)
  | put (xs : List α)
  | take (count : ℕ)
  | rewind
  | clear

/-- A new queue. -/
def empty : BoundedQueue α := ⟨[], 0, false, false⟩

variable (capacity : ℕ)

/-- Appending items, all or none. -/
def put (q : BoundedQueue α) (xs : List α) : BoundedQueue α :=
  if q.overflow = true ∨ capacity < q.items.length + xs.length then { q with overflow := true }
  else { q with items := q.items ++ xs }

/-- Moving the cursor over the next items. -/
def take (q : BoundedQueue α) (count : ℕ) : BoundedQueue α :=
  if q.underflow = true ∨ q.items.length < q.cursor + count then { q with underflow := true }
  else { q with cursor := q.cursor + count }

/-- The queue after an operation. -/
def step (q : BoundedQueue α) : Op α → BoundedQueue α
  | .put xs => q.put capacity xs
  | .take count => q.take count
  | .rewind => { q with cursor := 0, underflow := false }
  | .clear => empty

/-- The queue after a sequence of operations. -/
def run (q : BoundedQueue α) (ops : List (Op α)) : BoundedQueue α := ops.foldl (step capacity) q

/-- What the operations put in, block by block. -/
def puts (ops : List (Op α)) : List (List α) :=
  ops.filterMap fun op ↦ match op with
    | .put xs => some xs
    | _ => none

/-- How many items the operations ask for. -/
def asked (ops : List (Op α)) : ℕ :=
  (ops.map fun op ↦ match op with
    | .take count => count
    | _ => 0).sum

variable {capacity}

theorem run_concat (q : BoundedQueue α) (ops : List (Op α)) (op : Op α) :
    q.run capacity (ops ++ [op]) = (q.run capacity ops).step capacity op := by
  rw [run, run, List.foldl_append, List.foldl_cons, List.foldl_nil]

theorem puts_concat (ops : List (Op α)) (op : Op α) : puts (ops ++ [op]) = puts ops ++ puts [op] :=
  List.filterMap_append

theorem asked_concat (ops : List (Op α)) (op : Op α) :
    asked (ops ++ [op]) = asked ops + asked [op] := by
  rw [asked, List.map_append, List.sum_append, asked, asked]

theorem put_of_not_fit {q : BoundedQueue α} {xs : List α}
    (h : q.overflow = true ∨ capacity < q.items.length + xs.length) :
    q.put capacity xs = { q with overflow := true } := if_pos h

theorem put_of_fit {q : BoundedQueue α} {xs : List α} (hflag : q.overflow = false)
    (h : q.items.length + xs.length ≤ capacity) :
    q.put capacity xs = { q with items := q.items ++ xs } := by
  refine if_neg (not_or.mpr ⟨?_, Nat.not_lt_of_le h⟩)
  rw [hflag]
  exact Bool.false_ne_true

theorem take_of_too_many {q : BoundedQueue α} {count : ℕ}
    (h : q.underflow = true ∨ q.items.length < q.cursor + count) :
    q.take count = { q with underflow := true } := if_pos h

theorem take_of_le {q : BoundedQueue α} {count : ℕ} (hflag : q.underflow = false)
    (h : q.cursor + count ≤ q.items.length) :
    q.take count = { q with cursor := q.cursor + count } := by
  refine if_neg (not_or.mpr ⟨?_, Nat.not_lt_of_le h⟩)
  rw [hflag]
  exact Bool.false_ne_true

theorem step_items {q : BoundedQueue α} {op : Op α} (hput : ∀ xs, op ≠ .put xs)
    (hclear : op ≠ .clear) :
    (q.step capacity op).items = q.items ∧ (q.step capacity op).overflow = q.overflow := by
  rcases op with xs | count | _ | _
  · exact absurd rfl (hput xs)
  · rw [step, take]
    split <;> exact ⟨rfl, rfl⟩
  · exact ⟨rfl, rfl⟩
  · exact absurd rfl hclear

theorem put_cursor (q : BoundedQueue α) (xs : List α) :
    (q.put capacity xs).cursor = q.cursor ∧ (q.put capacity xs).underflow = q.underflow := by
  rw [put]
  split <;> exact ⟨rfl, rfl⟩

/-! ## The laws -/

/-- **What is in the queue.** Since the queue was last empty, the items are those put in up to the
first put for which there was no room, and the flag tells whether there was one. -/
theorem run_puts {q : BoundedQueue α} (hitems : q.items = []) (hflag : q.overflow = false)
    {ops : List (Op α)} (hclear : .clear ∉ ops) :
    ∃ kept, UpToFirst (fun before xs ↦ capacity < before.flatten.length + xs.length)
        (puts ops) kept ∧
      (q.run capacity ops).items = kept.flatten ∧
      ((q.run capacity ops).overflow = true ↔ kept ≠ puts ops) := by
  induction ops using List.reverseRecOn with
  | nil => exact ⟨[], .nil, hitems, by simp [run, hflag, puts]⟩
  | append_singleton ops op ih =>
    rw [List.mem_append, not_or, List.mem_singleton] at hclear
    obtain ⟨kept, hfirst, hkept, hover⟩ := ih hclear.1
    rw [run_concat, puts_concat]
    by_cases hput : ∃ xs, op = .put xs
    · obtain ⟨xs, rfl⟩ := hput
      have hxs : puts [Op.put xs] = [xs] := rfl
      rw [hxs, step]
      -- once a put has failed, the flag stays and nothing is kept any more
      by_cases hfull : kept ≠ puts ops
      · rw [put_of_not_fit (Or.inl (hover.mpr hfull))]
        exact ⟨kept, hfirst.concat_of_ne hfull, hkept, iff_of_true rfl hfirst.ne_concat⟩
      · rw [not_not] at hfull
        subst hfull
        have hopen : (q.run capacity ops).overflow = false := by
          rw [← Bool.not_eq_true, hover, not_not]
        by_cases hroom : capacity < (puts ops).flatten.length + xs.length
        · rw [put_of_not_fit (Or.inr (by rwa [hkept]))]
          exact ⟨puts ops, hfirst.concat_of_bad hroom, hkept, iff_of_true rfl hfirst.ne_concat⟩
        · rw [put_of_fit hopen (by rw [hkept]; exact Nat.le_of_not_lt hroom)]
          refine ⟨puts ops ++ [xs], hfirst.concat_of_not_bad hroom, ?_, ?_⟩
          · dsimp only
            rw [hkept, List.flatten_append, List.flatten_singleton]
          · exact iff_of_false (by simp [hopen]) (not_not.mpr rfl)
    · have hnone : puts [op] = [] := by
        rcases op with xs | count | _ | _
        · exact absurd ⟨xs, rfl⟩ hput
        · rfl
        · rfl
        · rfl
      -- what is no put leaves the items alone, and is not counted
      obtain ⟨hsame, hsame'⟩ := @step_items _ capacity (q.run capacity ops) op
        (fun xs h ↦ hput ⟨xs, h⟩) (Ne.symm hclear.2)
      rw [hnone, List.append_nil, hsame, hsame']
      exact ⟨kept, hfirst, hkept, hover⟩

/-- **Where the cursor is.** Since the cursor was last at the front, it has moved over what was
asked for up to the first take for which too little was left, and the flag tells whether there was
one. -/
theorem run_takes {q : BoundedQueue α} (hcursor : q.cursor = 0) (hflag : q.underflow = false)
    {ops : List (Op α)} (hclear : .clear ∉ ops) (hrewind : .rewind ∉ ops) :
    ∃ served, UpToFirst (fun before op ↦ ∃ count, op = .take count ∧
        (q.run capacity before).items.length < asked before + count) ops served ∧
      (q.run capacity ops).cursor = asked served ∧
      ((q.run capacity ops).underflow = true ↔ served ≠ ops) := by
  induction ops using List.reverseRecOn with
  | nil => exact ⟨[], .nil, hcursor, by simp [run, hflag]⟩
  | append_singleton ops op ih =>
    rw [List.mem_append, not_or, List.mem_singleton] at hclear hrewind
    obtain ⟨served, hfirst, hserved, hunder⟩ := ih hclear.1 hrewind.1
    rw [run_concat]
    -- once a take has failed, the flag stays and nothing moves
    by_cases hfailed : served ≠ ops
    · have hset := hunder.mpr hfailed
      have hstep : ((q.run capacity ops).step capacity op).cursor = (q.run capacity ops).cursor ∧
          ((q.run capacity ops).step capacity op).underflow = true := by
        rcases op with xs | count | _ | _
        · rw [step, (put_cursor _ xs).1, (put_cursor _ xs).2]
          exact ⟨rfl, hset⟩
        · rw [step, take_of_too_many (Or.inl hset)]
          exact ⟨rfl, rfl⟩
        · exact absurd rfl hrewind.2
        · exact absurd rfl hclear.2
      rw [hstep.1, hstep.2]
      exact ⟨served, hfirst.concat_of_ne hfailed, hserved, iff_of_true rfl hfirst.ne_concat⟩
    · rw [not_not] at hfailed
      subst hfailed
      have hopen : (q.run capacity served).underflow = false := by
        rw [← Bool.not_eq_true, hunder, not_not]
      rcases op with xs | count | _ | _
      · rw [step, (put_cursor _ xs).1, (put_cursor _ xs).2]
        refine ⟨served ++ [.put xs], hfirst.concat_of_not_bad ?_, ?_, ?_⟩
        · rintro ⟨_, h, -⟩
          exact absurd h (by simp)
        · rw [hserved, asked_concat]
          rfl
        · exact iff_of_false (by simp [hopen]) (not_not.mpr rfl)
      · rw [step]
        by_cases hleft : (q.run capacity served).items.length < asked served + count
        · rw [take_of_too_many (Or.inr (by rwa [hserved]))]
          exact ⟨served, hfirst.concat_of_bad ⟨count, rfl, hleft⟩, hserved,
            iff_of_true rfl hfirst.ne_concat⟩
        · rw [take_of_le hopen (by rw [hserved]; exact Nat.le_of_not_lt hleft)]
          refine ⟨served ++ [.take count], hfirst.concat_of_not_bad ?_, ?_, ?_⟩
          · rintro ⟨_, ⟨⟩, h⟩
            exact hleft h
          · dsimp only
            rw [hserved, asked_concat]
            rfl
          · exact iff_of_false (by simp [hopen]) (not_not.mpr rfl)
      · exact absurd rfl hrewind.2
      · exact absurd rfl hclear.2

end BoundedQueue

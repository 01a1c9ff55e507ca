import Mathlib.Data.Vector.Basic
import Mathlib.Data.List.Basic

/-!
# Fixed arrays with a fill level

A statically allocated array together with a fill level is the usual representation of a byte
buffer: the cells below the level hold data, those above hold whatever was there before. Loads and
stores are *checked* here, an access outside the array being `none`, so that a program written with
them is defined exactly when every index it uses is in range. The lemmas move from the array to the
list of cells below the level (`filled`), in which no stale cell appears.
-/

namespace FixedArray

variable {α : Type*} {n : ℕ}

/-! ## The cells below the fill level -/

/-- The cells below the fill level `k`. -/
def filled (m : Vector α n) (k : ℕ) : List α := m.toList.take k

@[simp] theorem filled_zero (m : Vector α n) : filled m 0 = [] := List.take_zero

theorem length_filled {m : Vector α n} {k : ℕ} (h : k ≤ n) : (filled m k).length = k := by
  rw [filled, List.length_take, Vector.length_toList, min_eq_left h]

theorem filled_set {m : Vector α n} {k : ℕ} (x : α) (h : k < n) :
    filled (m.set k x h) (k + 1) = filled m k ++ [x] := by
  have hlen : k < m.toList.length := by simpa using h
  rw [filled, filled, Vector.toList_set, List.take_add_one, List.take_set_of_le (le_refl k),
    List.getElem?_set_self hlen, Option.toList_some]

theorem getElem?_filled (m : Vector α n) (k i : ℕ) :
    (filled m k)[i]? = if i < k then m[i]? else none := by
  rw [filled, List.getElem?_take, Vector.getElem?_toList]

/-! ## Stores -/

/-- A store, undefined outside the array. -/
def store? (m : Vector α n) (i : ℕ) (x : α) : Option (Vector α n) :=
  if h : i < n then some (m.set i x h) else none

theorem store?_of_lt (m : Vector α n) {i : ℕ} (x : α) (h : i < n) :
    store? m i x = some (m.set i x h) := dif_pos h

/-- Copying a list into the cells from `i` on. -/
def blit (m : Vector α n) : (i : ℕ) → (xs : List α) → i + xs.length ≤ n → Vector α n
  | _, [], _ => m
  | i, x :: xs, h =>
    blit (m.set i x (by simp only [List.length_cons] at h; omega)) (i + 1) xs
      (by simp only [List.length_cons] at h; omega)

theorem filled_blit {m : Vector α n} {i : ℕ} {xs : List α} (h : i + xs.length ≤ n) :
    filled (blit m i xs h) (i + xs.length) = filled m i ++ xs := by
  induction xs generalizing m i with
  | nil => simp [blit]
  | cons x xs ih =>
    have hlen : i + (x :: xs).length = i + 1 + xs.length := by simp; omega
    have hi : i < n := by omega
    rw [blit, hlen, ih (by omega), filled_set x hi]
    simp

/-! ## Loads -/

/-- The cells from `start` on, `count` of them. -/
def loadRange? (load : ℕ → Option α) (start count : ℕ) : Option (List α) :=
  (List.range' start count).mapM load

theorem loadRange?_getElem? {xs : List α} {start count : ℕ} (h : start + count ≤ xs.length) :
    loadRange? (fun i ↦ xs[i]?) start count = some ((xs.drop start).take count) := by
  induction count generalizing start with
  | zero => simp [loadRange?]
  | succ count ih =>
    have hstart : start < xs.length := by omega
    have ih' := @ih (start + 1) (by omega)
    rw [loadRange?] at ih' ⊢
    rw [List.range'_succ, List.mapM_cons, List.getElem?_eq_getElem hstart, ih',
      List.drop_eq_getElem_cons hstart, List.take_succ_cons]
    rfl

/-- The memory behind `g` answers every load that the memory behind `f` answers, in the same way. A
computation defined over the smaller memory has the same result over the larger one, and so cannot
have used a cell outside the smaller. -/
def Extends (f g : ℕ → Option α) : Prop := ∀ i x, f i = some x → g i = some x

theorem extends_filled (m : Vector α n) (k : ℕ) :
    Extends (fun i ↦ (filled m k)[i]?) fun i ↦ m[i]? := by
  intro i x h
  dsimp only at h ⊢
  rw [getElem?_filled] at h
  split at h
  · exact h
  · exact absurd h (by simp)

theorem Extends.loadRange? {f g : ℕ → Option α} (hfg : Extends f g) {start count : ℕ}
    {xs : List α} (h : loadRange? f start count = some xs) :
    FixedArray.loadRange? g start count = some xs := by
  induction count generalizing start xs with
  | zero => exact h
  | succ count ih =>
    rw [FixedArray.loadRange?, List.range'_succ, List.mapM_cons] at h ⊢
    simp only [Option.bind_eq_bind, Option.bind_eq_some_iff] at h ⊢
    obtain ⟨x, hx, rest, hrest, hxs⟩ := h
    exact ⟨x, hfg _ _ hx, rest, ih hrest, hxs⟩

/-! ## Lengths -/

/-- Unsigned subtraction, undefined where it would wrap. -/
def sub? (a b : ℕ) : Option ℕ := if b ≤ a then some (a - b) else none

theorem sub?_of_le {a b : ℕ} (h : b ≤ a) : sub? a b = some (a - b) := if_pos h

end FixedArray

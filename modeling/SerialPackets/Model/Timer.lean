import SerialPackets.Lib.WrapClock

/-!
# The clock and the timer

True time is an unbounded number of milliseconds; `millis()` shows it modulo `2 ^ 32`. A
`SerialPacketsTimer` remembers one reading, from which it tells the time elapsed since.
-/

namespace SerialPackets

/-- `millis()` at a true time. -/
def millis (now : ℕ) : UInt32 := UInt32.ofNat now

theorem toBitVec_millis (now : ℕ) : (millis now).toBitVec = WrapClock.reading 32 now := rfl

/-- `SerialPacketsTimer`. -/
structure SerialPacketsTimer where
  startMillis : UInt32
  deriving DecidableEq

namespace SerialPacketsTimer

/-- `reset`. -/
def reset (now : ℕ) : SerialPacketsTimer := ⟨millis now⟩

/-- `elapsed_millis`. -/
def elapsedMillis (timer : SerialPacketsTimer) (now : ℕ) : UInt32 := millis now - timer.startMillis

/-- `set`. -/
def set (now : ℕ) (elapsedMillis : UInt32) : SerialPacketsTimer := ⟨millis now - elapsedMillis⟩

/-- The time a timer shows after a reset is exact up to the wrap of the clock. -/
theorem toNat_elapsedMillis_reset {start now : ℕ} (h : start ≤ now) :
    ((reset start).elapsedMillis now).toNat = (now - start) % 2 ^ 32 :=
  WrapClock.toNat_sub_reading h

theorem toNat_elapsedMillis_set {start now : ℕ} (elapsed : ℕ) (h : start ≤ now) :
    ((set start (UInt32.ofNat elapsed)).elapsedMillis now).toNat
      = (now - start + elapsed) % 2 ^ 32 := by
  obtain ⟨d, rfl⟩ := Nat.exists_eq_add_of_le h
  have hsub : (set start (UInt32.ofNat elapsed)).elapsedMillis (start + d)
      = UInt32.ofNat (d + elapsed) := by
    rw [set, elapsedMillis, millis, millis, UInt32.ofNat_add, UInt32.ofNat_add]
    grind
  rw [hsub, UInt32.toNat_ofNat', Nat.add_sub_cancel_left]

end SerialPacketsTimer

end SerialPackets

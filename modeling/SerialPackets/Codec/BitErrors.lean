import Mathlib.Tactic.NormNum.Prime
import SerialPackets.Codec.Damage
import SerialPackets.Lib.RegisterPeriod

/-!
# A few flipped bits

The powers of `x` modulo the polynomial of the CRC run through a cycle of `2¹⁵ - 1` words. So the
check of `process_packet` finds any two flipped bits, wherever they are, in all bodies up to 4095
bytes, and it finds any odd number of them in any case. Up to that length any two bodies of packets
differ in at least four bits (`four_le_count_xorBytes`), and up to three flipped bits cost the
packet they are in and nothing else (`filterMap_reports_fewBits`).

With the sizes that are used when the user overrides nothing, every body is short enough.
-/

namespace SerialPackets

open Framing ShiftRegister

variable {cfg : Config} {ps qs : List (Bool × Packet (List UInt8))}

/-! ## The cycle -/

private theorem iterate_turn_crcCcittPoly : (turn crcCcittPoly)^[16] 1#16 = crcCcittPoly := by
  decide +kernel

/-- The powers at `2¹⁵ - 1` and at its quotients by 7, 31 and 151, by the binary digits of these
exponents. -/
private theorem power_crcCcittPoly :
    power crcCcittPoly (List.replicate 15 true) = 1#16 ∧
    power crcCcittPoly
      [true, false, false, true, false, false, true, false, false, true, false, false, true]
        ≠ 1#16 ∧
    power crcCcittPoly
      [true, false, false, false, false, true, false, false, false, false, true] ≠ 1#16 ∧
    power crcCcittPoly [true, false, false, true, true, false, true, true] ≠ 1#16 := by
  decide +kernel

/-- **The cycle**: the power `2¹⁵ - 1` is one, and no power below that is, since none of the
quotients by its prime factors is. -/
theorem minimalPeriod_turn_crcCcittPoly :
    Function.minimalPeriod (turn crcCcittPoly) 1#16 = 32767 := by
  obtain ⟨hperiod, h7, h31, h151⟩ := power_crcCcittPoly
  rw [← iterate_turn_eq_power (by decide) iterate_turn_crcCcittPoly] at hperiod h7 h31 h151
  refine Function.minimalPeriod_eq_of_prime hperiod fun p hp hdvd ↦ ?_
  have hfactors : p = 7 ∨ p = 31 ∨ p = 151 := by
    have hproduct : p ∣ 7 * (31 * 151) := hdvd
    rw [hp.dvd_mul, hp.dvd_mul, Nat.prime_dvd_prime_iff_eq hp (by norm_num),
      Nat.prime_dvd_prime_iff_eq hp (by norm_num),
      Nat.prime_dvd_prime_iff_eq hp (by norm_num)] at hproduct
    exact hproduct
  rcases hfactors with rfl | rfl | rfl
  · exact h7
  · exact h31
  · exact h151

/-! ## Errors -/

/-- **Up to three flipped bits** are found, anywhere in a body of up to 4095 bytes. -/
theorem run_zero_ne_zero_of_fewBits {error : List UInt8} (hne : ∃ b ∈ error, b ≠ 0)
    (hfew : (bitsOf error).count true ≤ 3) (hshort : error.length ≤ 4095) :
    run crcCcittPoly 0#16 (bitsOf error) ≠ 0#16 := by
  have hpos : 0 < (bitsOf error).count true := List.count_pos_iff.mpr (true_mem_bitsOf hne)
  by_cases htwo : (bitsOf error).count true = 2
  · refine run_zero_ne_zero_of_two (by decide) iterate_turn_crcCcittPoly htwo ?_
    rw [minimalPeriod_turn_crcCcittPoly, length_bitsOf]
    omega
  · refine run_zero_ne_zero_of_odd (by decide) ?_
    have hcases : (bitsOf error).count true = 1 ∨ (bitsOf error).count true = 3 := by omega
    rcases hcases with hone | hthree
    · rw [hone]
      decide
    · rw [hthree]
      decide

/-- **Four bits apart.** Two packets whose bodies have the same length, of up to 4095 bytes, differ
in at least four bits of their bodies. -/
theorem four_le_count_xorBytes {p q : Packet (List UInt8)} (hne : p ≠ q)
    (hlen : p.body.length = q.body.length) (hshort : p.body.length ≤ 4095) :
    4 ≤ (bitsOf (xorBytes p.body q.body)).count true := by
  by_contra hfew
  have hlength : (xorBytes p.body q.body).length = p.body.length := by
    rw [xorBytes, List.length_zipWith, hlen, min_self]
  have hxor : xorBytes p.body (xorBytes p.body q.body) = q.body := by
    apply List.ext_getElem
    · rw [xorBytes, List.length_zipWith, hlength, min_self, hlen]
    · intro i h₁ h₂
      simp only [xorBytes, List.getElem_zipWith]
      rw [← UInt8.xor_assoc, UInt8.xor_self, UInt8.zero_xor]
  have hnonzero : ∃ b ∈ xorBytes p.body q.body, b ≠ 0 := by
    by_contra hzero
    push Not at hzero
    have hsame := xorBytes_replicate_zero p.body
    rw [← hlength, ← List.eq_replicate_iff.mpr ⟨rfl, hzero⟩, hxor] at hsame
    exact hne (body_eq_body_iff.mp hsame.symm)
  have hfound := run_zero_ne_zero_of_fewBits hnonzero (by omega) (hlength.trans_le hshort)
  exact packetOf_eq_none_iff.mp (@packetOf_xorBytes Config.default p _ hlength hfound) q hxor

/-- Two messages with different payloads. -/
theorem four_le_count_xorBytes_messages :
    4 ≤ (bitsOf (xorBytes (Packet.message 1 [0x10, 0]).body
      (Packet.message 1 [0, 0x20]).body)).count true :=
  four_le_count_xorBytes (by decide) rfl (by decide)

/-- **A few flipped bits cost one packet.** Let the decoder be ready for a stream of packets. Up to
three flipped bits anywhere in the body of one of them, of up to 4095 bytes, make the decoder miss
that packet; all others are reported, in order, and nothing else. -/
theorem filterMap_reports_fewBits (d : SerialPacketsDecoder cfg) {preFlag : Bool}
    {p : Packet (List UInt8)} {error : List UInt8}
    (hready : ReadyFor d.receiver (ps ++ [(preFlag, p)]))
    (hdata : ∀ q ∈ ps ++ (preFlag, p) :: qs, q.2.data.length ≤ cfg.maxPacketDataLen)
    (hlen : error.length = p.body.length) (hne : ∃ b ∈ error, b ≠ 0)
    (hfew : (bitsOf error).count true ≤ 3) (hshort : p.body.length ≤ 4095) :
    (d.reports (wires ps ++ hdlc.frame preFlag (xorBytes p.body error) ++ wires qs)).filterMap id
      = ps.map Prod.snd ++ qs.map Prod.snd :=
  filterMap_reports_xorBytes d hready hdata hlen
    (run_zero_ne_zero_of_fewBits hne hfew (hlen.trans_le hshort))

/-- A message that has lost the lowest bit of its type and got the highest one of its CRC. -/
theorem filterMap_reports_fewBits_twoBits :
    let d : SerialPacketsDecoder Config.default :=
      .fresh (Vector.replicate _ 0) (.message 0) (Vector.replicate _ 0)
    let p : Packet (List UInt8) := .message 2 [packetFlag]
    let error : List UInt8 := [1, 0, 0, 0x80, 0]
    (d.reports (wires [(true, .message 1 [7])] ++ hdlc.frame false (xorBytes p.body error)
      ++ wires [(false, .message 3 [])])).filterMap id = [.message 1 [7], .message 3 []] :=
  filterMap_reports_fewBits
    (.fresh (Vector.replicate _ 0) (.message 0) (Vector.replicate _ 0))
    (Or.inr ⟨rfl, by decide⟩) (by decide) rfl ⟨1, by decide, by decide⟩
    (by decide) (by decide)

end SerialPackets

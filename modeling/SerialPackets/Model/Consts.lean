import Mathlib.Algebra.Group.Nat.Defs
import SerialPackets.Lib.Framing

/-!
# Constants

The protocol constants, and the two sizes a user may override at build time. Everything downstream
is parametric in the latter: a `Config` is one build of the library. Its fields are the constraints
under which the sizes derived from it are the `uint16_t` values the sources take them for.
-/

namespace SerialPackets

/-- One build configuration. -/
structure Config where
  /-- `MAX_PACKET_DATA_LEN`. -/
  maxPacketDataLen : ℕ
  /-- `MAX_PENDING_COMMANDS`. -/
  maxPendingCommands : ℕ
  /-- The largest derived size, that of `StuffedPacketBuffer`, is a `uint16_t`. -/
  sizes_fit : (8 + maxPacketDataLen) * 3 / 2 + 2 < 2 ^ 16
  pending_fit : maxPendingCommands < 2 ^ 16

/-- The values used when the user overrides nothing. -/
def Config.default : Config where
  maxPacketDataLen := 100
  maxPendingCommands := 20
  sizes_fit := by decide
  pending_fit := by decide

def packetFlag : UInt8 := 0x7E

def packetEsc : UInt8 := 0x7D

def preFlagTimeoutMillis : ℕ := 1000

def minPacketOverhead : ℕ := 4

def maxPacketOverhead : ℕ := 8

def minPacketLen : ℕ := minPacketOverhead

/-- `TYPE_COMMAND`, `TYPE_RESPONSE` and `TYPE_MESSAGE`, the values of the packet type byte. -/
def typeCommand : UInt8 := 1

def typeResponse : UInt8 := 2

def typeMessage : UInt8 := 3

/-- `MAX_CMD_TIMEOUT_MILLIS`. -/
def maxCmdTimeoutMillis : UInt16 := 10000

/-- The status codes the library itself produces. -/
def statusOk : UInt8 := 0

def statusTimeout : UInt8 := 2

namespace Config

variable (cfg : Config)

/-- `MAX_PACKET_LEN`, the longest packet before flagging and byte stuffing. -/
def maxPacketLen : ℕ := maxPacketOverhead + cfg.maxPacketDataLen

/-- The capacity of `EncodedPacketBuffer`. -/
def encodedCapacity : ℕ := cfg.maxPacketLen + 2

/-- The capacity of `StuffedPacketBuffer`. -/
def stuffedCapacity : ℕ := cfg.maxPacketLen * 3 / 2 + 2

theorem stuffedCapacity_lt : cfg.stuffedCapacity < 2 ^ 16 := cfg.sizes_fit

theorem encodedCapacity_lt : cfg.encodedCapacity < 2 ^ 16 := by
  have h := cfg.sizes_fit
  rw [encodedCapacity, maxPacketLen, maxPacketOverhead]
  omega

theorem eight_le_maxPacketLen : 8 ≤ cfg.maxPacketLen := Nat.le_add_right _ _

end Config

/-- The stuffing scheme of the wire format: the HDLC flag and escape, masked by `xor 0x20`. -/
def hdlc : Framing.Stuffing UInt8 where
  flag := packetFlag
  esc := packetEsc
  mask b := b ^^^ 0x20
  mask_mask b := by rw [UInt8.xor_assoc, UInt8.xor_self, UInt8.xor_zero]
  mask_flag_ne_flag := by decide
  mask_esc_ne_flag := by decide
  esc_ne_flag := by decide

@[simp] theorem hdlc_flag : hdlc.flag = packetFlag := rfl

@[simp] theorem hdlc_esc : hdlc.esc = packetEsc := rfl

theorem hdlc_special_iff {b : UInt8} :
    hdlc.special b = true ↔ b = packetFlag ∨ b = packetEsc := Framing.Stuffing.special_iff

theorem hdlc_special_eq_false_iff {b : UInt8} :
    hdlc.special b = false ↔ ¬(b = packetFlag ∨ b = packetEsc) := by
  rw [← hdlc_special_iff, Bool.not_eq_true]

end SerialPackets

import SerialPackets.Lib.BigEndian
import SerialPackets.Lib.FixedArray
import SerialPackets.Model.Consts
import SerialPackets.Model.Crc

/-!
# Byte buffers

`SerialPacketsBuffer<N>`: a statically allocated array of `N` bytes with a fill level, a read cursor
and two sticky error flags. The two inequalities the class maintains are fields of the structure, so
the unsigned differences `N - size` and `size - bytesRead` never wrap.

The four writers append some bytes or, when they do not fit, set the write flag; they differ only in
which bytes. The four readers take some bytes or, when too few are left, return zeros and set the
read flag; they differ only in how the bytes are put together.
-/

namespace SerialPackets

open FixedArray

/-- `SerialPacketsBuffer<N>`. -/
structure SerialPacketsBuffer (N : ℕ) where
  size : ℕ
  buffer : Vector UInt8 N
  bytesRead : ℕ
  hadReadErrors : Bool
  hadWriteErrors : Bool
  bytesRead_le : bytesRead ≤ size
  size_le : size ≤ N

namespace SerialPacketsBuffer

variable {N : ℕ}

/-- A new buffer, over whatever the memory holds. -/
def fresh (memory : Vector UInt8 N) : SerialPacketsBuffer N where
  size := 0
  buffer := memory
  bytesRead := 0
  hadReadErrors := false
  hadWriteErrors := false
  bytesRead_le := le_refl 0
  size_le := Nat.zero_le N

/-- The data bytes. -/
def contents (b : SerialPacketsBuffer N) : List UInt8 := filled b.buffer b.size

def capacity (_ : SerialPacketsBuffer N) : ℕ := N

def allRead (b : SerialPacketsBuffer N) : Bool := decide (b.size ≤ b.bytesRead)

def unreadBytes (b : SerialPacketsBuffer N) : ℕ := b.size - b.bytesRead

def freeBytes (b : SerialPacketsBuffer N) : ℕ := N - b.size

def allReadOk (b : SerialPacketsBuffer N) : Bool := b.allRead && !b.hadReadErrors

def resetReading (b : SerialPacketsBuffer N) : SerialPacketsBuffer N :=
  { b with bytesRead := 0, hadReadErrors := false, bytesRead_le := Nat.zero_le _ }

def clear (b : SerialPacketsBuffer N) : SerialPacketsBuffer N :=
  { b with
    size := 0
    bytesRead := 0
    hadReadErrors := false
    hadWriteErrors := false
    bytesRead_le := le_refl 0
    size_le := Nat.zero_le N }

def crc16 (b : SerialPacketsBuffer N) : UInt16 := serialPacketsGenCrc16 b.contents

/-! ## Writing -/

def writeBytes (b : SerialPacketsBuffer N) (bytes : List UInt8) : SerialPacketsBuffer N :=
  if h : b.hadWriteErrors = true ∨ bytes.length > b.freeBytes then
    { b with hadWriteErrors := true }
  else
    have hfit : b.size + bytes.length ≤ N := by
      have hsize := b.size_le
      rw [freeBytes, not_or] at h
      omega
    { b with
      buffer := blit b.buffer b.size bytes hfit
      size := b.size + bytes.length
      bytesRead_le := le_trans b.bytesRead_le (Nat.le_add_right _ _)
      size_le := hfit }

def writeUint8 (b : SerialPacketsBuffer N) (v : UInt8) : SerialPacketsBuffer N := b.writeBytes [v]

def writeUint16 (b : SerialPacketsBuffer N) (v : UInt16) : SerialPacketsBuffer N :=
  b.writeBytes (BigEndian.bytes16 v)

def writeUint32 (b : SerialPacketsBuffer N) (v : UInt32) : SerialPacketsBuffer N :=
  b.writeBytes (BigEndian.bytes32 v)

/-! ## Reading

The readers are `const` members over mutable cursor fields, so each returns the buffer too. -/

def readBytes (b : SerialPacketsBuffer N) (count : ℕ) : List UInt8 × SerialPacketsBuffer N :=
  if h : b.hadReadErrors = true ∨ count > b.unreadBytes then
    (List.replicate count 0, { b with hadReadErrors := true })
  else
    have hfit : b.bytesRead + count ≤ b.size := by
      have hread := b.bytesRead_le
      rw [unreadBytes, not_or] at h
      omega
    ((b.contents.drop b.bytesRead).take count,
      { b with bytesRead := b.bytesRead + count, bytesRead_le := hfit })

def readUint8 (b : SerialPacketsBuffer N) : UInt8 × SerialPacketsBuffer N :=
  let r := b.readBytes 1
  (r.1.getD 0 0, r.2)

def readUint16 (b : SerialPacketsBuffer N) : UInt16 × SerialPacketsBuffer N :=
  let r := b.readBytes 2
  (BigEndian.word16 (r.1.getD 0 0) (r.1.getD 1 0), r.2)

def readUint32 (b : SerialPacketsBuffer N) : UInt32 × SerialPacketsBuffer N :=
  let r := b.readBytes 4
  (BigEndian.word32 (r.1.getD 0 0) (r.1.getD 1 0) (r.1.getD 2 0) (r.1.getD 3 0), r.2)

def skipBytes (b : SerialPacketsBuffer N) (count : ℕ) : SerialPacketsBuffer N :=
  (b.readBytes count).2

/-- The operations a holder of a `const` reference may use. -/
inductive ReadOp
  | readUint8
  | readUint16
  | readUint32
  | readBytes (count : ℕ)
  | skipBytes (count : ℕ)
  | resetReading

/-- The buffer after a read. -/
def applyRead (b : SerialPacketsBuffer N) : ReadOp → SerialPacketsBuffer N
  | .readUint8 => b.readUint8.2
  | .readUint16 => b.readUint16.2
  | .readUint32 => b.readUint32.2
  | .readBytes count => (b.readBytes count).2
  | .skipBytes count => b.skipBytes count
  | .resetReading => b.resetReading

/-- The operations that change the contents. -/
inductive WriteOp
  | writeUint8 (v : UInt8)
  | writeUint16 (v : UInt16)
  | writeUint32 (v : UInt32)
  | writeBytes (bytes : List UInt8)
  | clear

/-- The buffer after a write. -/
def applyWrite (b : SerialPacketsBuffer N) : WriteOp → SerialPacketsBuffer N
  | .writeUint8 v => b.writeUint8 v
  | .writeUint16 v => b.writeUint16 v
  | .writeUint32 v => b.writeUint32 v
  | .writeBytes bytes => b.writeBytes bytes
  | .clear => b.clear

/-! ## Contents and flags -/

@[simp] theorem length_contents (b : SerialPacketsBuffer N) : b.contents.length = b.size :=
  length_filled b.size_le

@[simp] theorem contents_fresh (memory : Vector UInt8 N) : (fresh memory).contents = [] :=
  filled_zero _

@[simp] theorem contents_clear (b : SerialPacketsBuffer N) : b.clear.contents = [] :=
  filled_zero _

@[simp] theorem size_clear (b : SerialPacketsBuffer N) : b.clear.size = 0 := rfl

@[simp] theorem bytesRead_clear (b : SerialPacketsBuffer N) : b.clear.bytesRead = 0 := rfl

@[simp] theorem hadReadErrors_clear (b : SerialPacketsBuffer N) :
    b.clear.hadReadErrors = false := rfl

@[simp] theorem hadWriteErrors_clear (b : SerialPacketsBuffer N) :
    b.clear.hadWriteErrors = false := rfl

@[simp] theorem contents_setWriteErrors (b : SerialPacketsBuffer N) (e : Bool) :
    contents { b with hadWriteErrors := e } = b.contents := rfl

theorem writeBytes_of_not_fit {b : SerialPacketsBuffer N} {bytes : List UInt8}
    (h : b.hadWriteErrors = true ∨ N < b.size + bytes.length) :
    b.writeBytes bytes = { b with hadWriteErrors := true } := by
  have hsize := b.size_le
  rw [writeBytes, dif_pos]
  rw [freeBytes]
  exact h.imp_right fun hlt ↦ by omega

theorem contents_writeBytes {b : SerialPacketsBuffer N} {bytes : List UInt8}
    (herr : b.hadWriteErrors = false) (hfit : b.size + bytes.length ≤ N) :
    (b.writeBytes bytes).contents = b.contents ++ bytes := by
  have h : ¬(b.hadWriteErrors = true ∨ bytes.length > b.freeBytes) := by
    rw [freeBytes, herr]
    simp only [Bool.false_eq_true, false_or]
    omega
  rw [writeBytes, dif_neg h]
  exact filled_blit hfit

theorem hadWriteErrors_writeBytes {b : SerialPacketsBuffer N} {bytes : List UInt8}
    (herr : b.hadWriteErrors = false) (hfit : b.size + bytes.length ≤ N) :
    (b.writeBytes bytes).hadWriteErrors = false := by
  have h : ¬(b.hadWriteErrors = true ∨ bytes.length > b.freeBytes) := by
    rw [freeBytes, herr]
    simp only [Bool.false_eq_true, false_or]
    omega
  rw [writeBytes, dif_neg h]
  exact herr

theorem size_writeBytes {b : SerialPacketsBuffer N} {bytes : List UInt8}
    (herr : b.hadWriteErrors = false) (hfit : b.size + bytes.length ≤ N) :
    (b.writeBytes bytes).size = b.size + bytes.length := by
  rw [← length_contents, contents_writeBytes herr hfit, List.length_append, length_contents]

@[simp] theorem bytesRead_writeBytes (b : SerialPacketsBuffer N) (bytes : List UInt8) :
    (b.writeBytes bytes).bytesRead = b.bytesRead := by
  rw [writeBytes]
  split <;> rfl

@[simp] theorem hadReadErrors_writeBytes (b : SerialPacketsBuffer N) (bytes : List UInt8) :
    (b.writeBytes bytes).hadReadErrors = b.hadReadErrors := by
  rw [writeBytes]
  split <;> rfl

@[simp] theorem contents_readBytes (b : SerialPacketsBuffer N) (count : ℕ) :
    (b.readBytes count).2.contents = b.contents := by
  rw [readBytes]
  split <;> rfl

@[simp] theorem contents_applyRead (b : SerialPacketsBuffer N) (op : ReadOp) :
    (b.applyRead op).contents = b.contents := by
  cases op <;> first | exact contents_readBytes b _ | rfl

end SerialPacketsBuffer

/-- `SerialPacketsData`, the payload of one packet. -/
abbrev SerialPacketsData (cfg : Config) := SerialPacketsBuffer cfg.maxPacketDataLen

/-- `EncodedPacketBuffer`, a packet before stuffing. -/
abbrev EncodedPacketBuffer (cfg : Config) := SerialPacketsBuffer cfg.encodedCapacity

/-- `StuffedPacketBuffer`, a packet in wire format. -/
abbrev StuffedPacketBuffer (cfg : Config) := SerialPacketsBuffer cfg.stuffedCapacity

theorem SerialPacketsData.length_contents_le {cfg : Config} (data : SerialPacketsData cfg) :
    data.contents.length ≤ cfg.maxPacketDataLen := by
  rw [SerialPacketsBuffer.length_contents]
  exact data.size_le

end SerialPackets

import SerialPackets.Model.Data

/-!
# Packets

The three kinds of packet, with the payload type as a parameter: a `SerialPacketsData` where a
packet is handed to the encoder, a list of bytes where it is compared with what was received. The
unstuffed layout is given as one list of bytes, the *body*: type byte, fields, payload, and the CRC
of all of these in big-endian order.
-/

namespace SerialPackets

/-- A packet of one of the three kinds. -/
inductive Packet (D : Type*)
  | command (cmdId : UInt32) (endpoint : UInt8) (data : D)
  | response (cmdId : UInt32) (status : UInt8) (data : D)
  | message (endpoint : UInt8) (data : D)
  deriving DecidableEq

namespace Packet

variable {D E : Type*}

def data : Packet D → D
  | command _ _ d => d
  | response _ _ d => d
  | message _ d => d

def map (f : D → E) : Packet D → Packet E
  | command i e d => command i e (f d)
  | response i s d => response i s (f d)
  | message e d => message e (f d)

@[simp] theorem data_map (f : D → E) (p : Packet D) : (p.map f).data = f p.data := by
  cases p <;> rfl

/-- The type byte and the fields before the payload. -/
def header : Packet D → List UInt8
  | command i e _ => typeCommand :: (BigEndian.bytes32 i ++ [e])
  | response i s _ => typeResponse :: (BigEndian.bytes32 i ++ [s])
  | message e _ => [typeMessage, e]

/-- Header and payload, the part the CRC is taken over. -/
def covered (p : Packet (List UInt8)) : List UInt8 := p.header ++ p.data

/-- The packet before stuffing and flagging. -/
def body (p : Packet (List UInt8)) : List UInt8 :=
  p.covered ++ BigEndian.bytes16 (serialPacketsGenCrc16 p.covered)

/-- The packet on the wire. -/
def wire (preFlag : Bool) (p : Packet (List UInt8)) : List UInt8 :=
  (if preFlag then [packetFlag] else []) ++ hdlc.stuff p.body ++ [packetFlag]

theorem length_header_le (p : Packet D) : p.header.length ≤ 6 := by
  cases p <;> simp [header]

theorem two_le_length_header (p : Packet D) : 2 ≤ p.header.length := by
  cases p <;> simp [header]

theorem length_body (p : Packet (List UInt8)) :
    p.body.length = p.header.length + p.data.length + 2 := by
  simp only [body, covered, List.length_append, BigEndian.length_bytes16]

theorem length_body_le {cfg : Config} {p : Packet (List UInt8)}
    (h : p.data.length ≤ cfg.maxPacketDataLen) : p.body.length ≤ cfg.maxPacketLen := by
  have hheader := p.length_header_le
  rw [length_body, Config.maxPacketLen, maxPacketOverhead]
  omega

/-- **A wire packet starts with a flag exactly when one was asked for**: the type byte, which comes
first otherwise, is not a flag. -/
theorem head?_wire (preFlag : Bool) (p : Packet (List UInt8)) :
    (wire preFlag p).head? = some packetFlag ↔ preFlag = true := by
  cases preFlag with
  | true => simp [wire]
  | false =>
    have hbody : p.body ≠ [] := by
      intro h
      have := p.length_body
      rw [h, List.length_nil] at this
      omega
    have hstuff : hdlc.stuff p.body ≠ [] := by
      intro h
      have hle := Framing.Stuffing.length_le_length_stuff (S := hdlc) p.body
      rw [h] at hle
      exact hbody (List.length_eq_zero_iff.mp (Nat.le_zero.mp hle))
    have hhead := Framing.Stuffing.head?_stuff_ne_flag (S := hdlc) p.body
    rw [hdlc_flag] at hhead
    rw [wire, if_neg Bool.false_ne_true, List.nil_append, List.head?_append_of_ne_nil _ hstuff]
    simp [hhead]

theorem length_wire (preFlag : Bool) (p : Packet (List UInt8)) :
    (wire preFlag p).length
      = (if preFlag then 1 else 0) + p.body.length + p.body.countP hdlc.special + 1 := by
  rw [wire, List.length_append, List.length_append, Framing.Stuffing.length_stuff]
  cases preFlag with
  | true => simp; omega
  | false => simp

theorem wire_ne_nil (preFlag : Bool) (p : Packet (List UInt8)) : wire preFlag p ≠ [] := by
  simp [wire]

end Packet

end SerialPackets

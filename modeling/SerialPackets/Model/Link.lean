import SerialPackets.Model.Client

/-!
# Two clients on a line

Two devices joined by a lossless channel in each direction, with clocks of their own. A channel is
given by all the bytes that its sender's stream has accepted and the number of them that the
receiver has read; the difference is in flight. `loop` sees as many of the bytes in flight as the
channel chooses to show it, and reads them in portions that all come back complete.
-/

namespace SerialPackets

/-- The two ends of the line. -/
inductive Side
  | left
  | right
  deriving DecidableEq

/-- The other end. -/
def Side.peer : Side → Side
  | left => right
  | right => left

/-- Two devices, and how many of the bytes sent by its peer each has read. -/
structure Link (cfg : Config) (H : Type*) where
  dev : Side → Device cfg H
  read : Side → ℕ

/-- What the programs at the two ends do with their clients. In a call of `loop`, `available` is the
number of bytes that the channel shows, and `waits` are the times that the answers of `readBytes`
take. -/
inductive LinkOp (cfg : Config) (H : Type*)
  | begin (side : Side)
  | sendCommand (side : Side) (endpoint : UInt8) (data : SerialPacketsData cfg)
      (responseHandler : Option H) (timeoutMillis : UInt16) (tx : TxAnswers)
  | sendMessage (side : Side) (endpoint : UInt8) (data : SerialPacketsData cfg) (tx : TxAnswers)
  | delay (side : Side) (millis : ℕ)
  | loop (side : Side) (available : ℕ) (waits : List ℕ) (resetMillis sweepMillis : ℕ)

/-- The answers of `readBytes` on a channel that holds these bytes. -/
def readAnswers : List UInt8 → List ℕ → List ReadAnswer
  | _, [] => []
  | bytes, wait :: waits =>
    ⟨wait, bytes.take rxTransferBufferLen⟩ :: readAnswers (bytes.drop rxTransferBufferLen) waits

namespace Link

variable {cfg : Config} {H : Type*}

/-- The bytes on their way to a side. -/
def inFlight (l : Link cfg H) (side : Side) : List UInt8 :=
  (l.dev side.peer).sent.drop (l.read side)

/-- A side has done something that reads some bytes. -/
def advance (l : Link cfg H) (side : Side) (d : Device cfg H) (count : ℕ) : Link cfg H where
  dev := Function.update l.dev side d
  read := Function.update l.read side (l.read side + count)

/-- One operation of one side, undefined if it does not come back or is shown more than is in
flight. -/
def step (react : Side → ℕ → Reaction cfg H) (l : Link cfg H) : LinkOp cfg H → Option (Link cfg H)
  | .begin side => some (l.advance side (l.dev side).begin 0)
  | .sendCommand side endpoint data responseHandler timeoutMillis tx =>
    some (l.advance side
      ((l.dev side).sendCommand endpoint data responseHandler timeoutMillis tx).2 0)
  | .sendMessage side endpoint data tx =>
    some (l.advance side ((l.dev side).sendMessage endpoint data tx).2 0)
  | .delay side millis => some (l.advance side ((l.dev side).wait millis) 0)
  | .loop side available waits resetMillis sweepMillis =>
    if available ≤ (l.inFlight side).length then
      let bytes := (l.inFlight side).take (available % 2 ^ 16)
      let input : LoopInput := ⟨available, readAnswers bytes waits, resetMillis, sweepMillis⟩
      -- before `begin`, `loop` reads nothing
      let count := if (l.dev side).begun then bytes.length else 0
      ((l.dev side).loop (react side) input).map fun d ↦ l.advance side d count
    else none

/-- Two clients that have just been constructed. -/
structure IsFresh (l : Link cfg H) : Prop where
  dev : ∀ side, Device.IsFresh (l.dev side)
  read : ∀ side, l.read side = 0

end Link

end SerialPackets

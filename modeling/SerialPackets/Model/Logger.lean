import Mathlib.Data.Nat.Notation
import Mathlib.Data.Int.Notation

/-!
# Error reports

What the library writes to its logger at error level, one constructor for each call of
`_logger.error`, with the values the call formats. Verbose messages are left out: they are written
on the same paths and nothing depends on them.
-/

namespace SerialPackets

/-- The error messages, by the function that writes them. -/
inductive Report
  -- `byte_stuffing`: insufficient space, with the number of the check
  | insufficientSpace (check : ℕ)
  -- `encode_*_packet`; messages use the text of responses
  | encodingCommand (dataSize : ℕ)
  | encodingResponse (dataSize : ℕ)
  -- `decode_next_byte`
  | packetOverrun
  | badEscape (b : UInt8)
  -- `process_packet`
  | packetTooShort (len : ℕ)
  | badCrc (packet computed : UInt16)
  | commandTooShort (len : ℕ)
  | responseTooShort (len : ℕ)
  | messageTooShort (len : ℕ)
  | invalidType (packetType : UInt8)
  -- `begin`
  | alreadyBegun
  -- `loop_cleanup`
  | commandTimeout (cmdId : UInt32)
  | timeoutWithoutHandler (cmdId : UInt32)
  -- `loop_rx`
  | shortRead (expected got : ℕ)
  -- `process_decoded_command_packet`
  | noCommandHandler
  | failedResponse
  | noRoomForResponse (size : ℕ)
  | shortResponse (written size : ℕ)
  -- `process_decoded_response_packet`
  | responseWithoutId
  | noPendingCommand (cmdId : UInt32)
  | responseWithoutHandler
  -- `process_decoded_message_packet`
  | noMessageHandler
  -- `sendCommand`
  | commandWithoutHandler
  | invalidTimeout (timeoutMillis : UInt16)
  | tooManyCommands
  | failedCommand
  | noRoomForCommand (size : ℕ) (available : ℤ)
  | shortCommand (written size : ℕ)
  -- `sendMessage`
  | failedMessage (dataSize : ℕ)
  | noRoomForMessage (size : ℕ) (available : ℤ)
  | shortMessage (written size : ℕ)
  deriving DecidableEq

/-- A context was found that is not free and has no handler. -/
def Report.IsNullHandler : Report → Prop
  | responseWithoutHandler => True
  | timeoutWithoutHandler _ => True
  | _ => False

end SerialPackets

import SerialPackets.Model.Consts
import SerialPackets.Lib.FixedArray
import SerialPackets.Lib.WrapClock
import SerialPackets.Lib.Runs
import SerialPackets.Lib.BigEndian
import SerialPackets.Model.Crc
import SerialPackets.Model.Data
import SerialPackets.Model.Logger
import SerialPackets.Model.Packet
import SerialPackets.Model.Encoder
import SerialPackets.Model.Decoder
import SerialPackets.Codec.Capacity
import SerialPackets.Codec.Grammar
import SerialPackets.Codec.RoundTrip
import SerialPackets.Model.Client
import SerialPackets.Client.Sending
import SerialPackets.Client.SendResults
import SerialPackets.Client.Moves
import SerialPackets.Client.PreFlag
import SerialPackets.Client.Slots
import SerialPackets.Client.Cleanup
import SerialPackets.Client.Pending
import SerialPackets.Client.Ledger
import SerialPackets.Model.Link
import SerialPackets.Client.Delivery
import SerialPackets.Codec.CrcCheck
import SerialPackets.Codec.Malformed
import SerialPackets.Codec.ByteQueue
import SerialPackets.Client.Receiving
import SerialPackets.Client.CommandHandler
import SerialPackets.Lib.Stamps
import SerialPackets.Client.Stages
import SerialPackets.Client.CommandIds
import SerialPackets.Lib.FrameStreams
import SerialPackets.Codec.Packets
import SerialPackets.Codec.Damage
import SerialPackets.Client.Dispatch
import SerialPackets.Client.History
import SerialPackets.Client.Completion
import SerialPackets.Client.Deadlines
import SerialPackets.Client.ShortWrites
import SerialPackets.Codec.Payload
import SerialPackets.Codec.Rejections
import SerialPackets.Client.Accounting
import SerialPackets.Codec.Memory
import SerialPackets.Client.Relocation
import SerialPackets.Client.Outstanding
import SerialPackets.Client.Answers
import SerialPackets.Lib.RegisterPeriod
import SerialPackets.Codec.BitErrors
import SerialPackets.Client.LeftAlone

import Fusain.Lib.Machine
import Fusain.Lib.ShiftRegister
import Fusain.Lib.Remainder
import Fusain.Lib.Stuffing
import Fusain.Lib.CommaFree
import Fusain.Lib.Damage
import Fusain.Lib.Endian
import Fusain.Lib.Cbor
import Fusain.Lib.Zcbor
import Fusain.Lib.ListRuntime
import Fusain.Lib.CborMap
import Fusain.Lib.Binary
import Fusain.Lib.Channel
import Fusain.Packet
import Fusain.Crc
import Fusain.CheckAlgebra
import Fusain.Messages
import Fusain.Payload.Config
import Fusain.Payload.Command
import Fusain.Payload.Data
import Fusain.Builders
import Fusain.Typed
import Fusain.Wire
import Fusain.Encoder
import Fusain.Decoder
import Fusain.Reader
import Fusain.Tracking
import Fusain.Copies
import Fusain.RoundTrip
import Fusain.BuildModes
import Fusain.Delimiters
import Fusain.Canonical
import Fusain.Pace
import Fusain.Refusals
import Fusain.History
import Fusain.Noise
import Fusain.Memory
import Fusain.Faults
import Fusain.CheckErrors
import Fusain.Containment
import Fusain.NetBuf
import Fusain.Exhaustion
import Fusain.Custody
import Fusain.Exchange
import Fusain.Link
import Fusain.Dispatch
import Fusain.Accepted
import Fusain.WireImage
import Fusain.Temperature

import Ieee1905.Agent.Capacity
import Ieee1905.Wsc.Names
import Ieee1905.Wsc.Stack

/-!
# WSC messages between agents

From `AddAttribute` on one side to `HandleCmdu` on the other: attributes become a message, the
message a TLV, the TLV part of a CMDU and the CMDU a packet; a frame that starts with it is cut to
the receive buffer, parsed and handed over. The reader of the CMDU sees the last accepted write
under every type, or nothing at all arrives, and the size of the attributes decides which
(`wsc_exchange`).
-/

namespace Ieee1905.Agent

open Codec Wire Wsc Ieee1905Agent MessageParser MessageSerializer WscMessage

/-! ## What a round leaves -/

section Packet

variable {front back : List Tlv} (others : ∀ t ∈ front ++ back, isOther t = true)

include others

end Packet

end Ieee1905.Agent

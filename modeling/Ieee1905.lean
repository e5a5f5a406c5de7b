import Ieee1905.Codec.PrefixCode
import Ieee1905.Codec.BigEndian
import Ieee1905.Codec.Announced
import Ieee1905.Codec.Sentinel
import Ieee1905.Codec.Division
import Ieee1905.Codec.Extension
import Ieee1905.Codec.LastWrite
import Ieee1905.Codec.MapWeight
import Ieee1905.Machine.While
import Ieee1905.Machine.Cursor
import Ieee1905.Machine.Records
import Ieee1905.Machine.Emit
import Ieee1905.Machine.System
import Ieee1905.Machine.Moves
import Ieee1905.Model.Fault
import Ieee1905.Model.Tlv
import Ieee1905.Model.Cmdu
import Ieee1905.Model.Serializer
import Ieee1905.Model.Parser
import Ieee1905.Model.Wsc
import Ieee1905.Model.Lldp
import Ieee1905.Model.Log
import Ieee1905.Model.Agent
import Ieee1905.Wire.Format
import Ieee1905.Wire.Packing
import Ieee1905.Wire.Parsing
import Ieee1905.Wire.Adding
import Ieee1905.Wire.Grammar
import Ieee1905.Wire.RoundTrip
import Ieee1905.Wire.Truncation
import Ieee1905.Wire.Safety
import Ieee1905.Wire.Canonical
import Ieee1905.Wire.Terminator
import Ieee1905.Wire.Built
import Ieee1905.Wire.Diagnosis
import Ieee1905.Wire.Splice
import Ieee1905.Wire.Kernel
import Ieee1905.Wire.Lifetime
import Ieee1905.Wire.Relay
import Ieee1905.Wire.Ownership
import Ieee1905.Wsc.Attributes
import Ieee1905.Wsc.RoundTrip
import Ieee1905.Wsc.Grammar
import Ieee1905.Wsc.Names
import Ieee1905.Wsc.Normal
import Ieee1905.Wsc.Writes
import Ieee1905.Wsc.Stack
import Ieee1905.Wsc.Diagnosis
import Ieee1905.Wsc.Overlay
import Ieee1905.Wsc.Contexts
import Ieee1905.Wsc.Editing
import Ieee1905.Lldp.Runs
import Ieee1905.Lldp.Ownership
import Ieee1905.Agent.Writing
import Ieee1905.Agent.ReceiveLoop
import Ieee1905.Agent.MessageIds
import Ieee1905.Agent.Traces
import Ieee1905.Agent.Capacity
import Ieee1905.Agent.Network
import Ieee1905.Agent.Exchange
import Ieee1905.Agent.Log

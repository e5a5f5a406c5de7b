import Ieee1905.Machine.Cursor
import Ieee1905.Model.Log
import Ieee1905.Model.Parser
import Ieee1905.Model.Serializer

/-!
# `InterfaceManager` and `Ieee1905Agent`

`src/interface_manager.cpp` and `src/agent.cpp`. What the source leaves to the operating
system is a parameter: one `ReceivePacket` call is a function of the receive buffer. Packets
sent, CMDUs handled, lines on `std::cerr` and lines handed to the logger are kept in the state.
-/

namespace Ieee1905

open Machine

structure InterfaceManager where
  interfaceName : String
  /-- The packets and destinations handed to `SendPacket`, oldest first. -/
  sent : List (List UInt8 × List UInt8)
  deriving DecidableEq, Repr

namespace InterfaceManager

/-- The constructor. -/
def new (ifaceName : String) (log : Log) : InterfaceManager × Log :=
  (⟨ifaceName, []⟩, log.emDebug ("InterfaceManager: Initialized for interface " ++ ifaceName))

def sendPacket (manager : InterfaceManager) (buffer destMac : List UInt8) (log : Log) : Bool × InterfaceManager × Log :=
  let log := log.emDebug ("InterfaceManager: Sending packet of size " ++ toString buffer.length)
  (true, { manager with sent := manager.sent ++ [(buffer, destMac)] }, log)

end InterfaceManager

/-- A `ReceivePacket` call: the returned length and the buffer afterwards. -/
abbrev ReceivePacket := List UInt8 → ℤ × List UInt8

/-- `InterfaceManager::ReceivePacket` as it stands: nothing is received. -/
def InterfaceManager.receivePacket : ReceivePacket := fun buffer => (0, buffer)

/-! ## Dispatch -/

namespace CmduTypes

@[match_pattern] def topologyDiscovery : MessageType := 0x0000
@[match_pattern] def topologyNotification : MessageType := 0x0001
@[match_pattern] def topologyQuery : MessageType := 0x0002
@[match_pattern] def topologyResponse : MessageType := 0x0003
@[match_pattern] def linkMetricQuery : MessageType := 0x0005
@[match_pattern] def linkMetricResponse : MessageType := 0x0006
@[match_pattern] def apAutoconfigurationSearch : MessageType := 0x0007
@[match_pattern] def apAutoconfigurationResponse : MessageType := 0x0008
@[match_pattern] def apAutoconfigurationWsc : MessageType := 0x0009
@[match_pattern] def apAutoconfigurationRenew : MessageType := 0x000a
@[match_pattern] def vendorSpecific : MessageType := 0x0004
@[match_pattern] def higherLayerQuery : MessageType := 0x000d
@[match_pattern] def higherLayerResponse : MessageType := 0x000e
@[match_pattern] def genericPhyQuery : MessageType := 0x0011
@[match_pattern] def genericPhyResponse : MessageType := 0x0012
@[match_pattern] def apCapabilityQuery : MessageType := 0x8001
@[match_pattern] def apCapabilityReport : MessageType := 0x8002
@[match_pattern] def channelPreferenceQuery : MessageType := 0x8004
@[match_pattern] def channelPreferenceReport : MessageType := 0x8005
@[match_pattern] def channelSelectionRequest : MessageType := 0x8006
@[match_pattern] def channelSelectionResponse : MessageType := 0x8007
@[match_pattern] def operatingChannelReport : MessageType := 0x8008
@[match_pattern] def clientCapabilityQuery : MessageType := 0x8009
@[match_pattern] def clientCapabilityReport : MessageType := 0x800a
@[match_pattern] def assocStaLinkMetricsQuery : MessageType := 0x800d
@[match_pattern] def assocStaLinkMetricsResponse : MessageType := 0x800e
@[match_pattern] def unassocStaLinkMetricsQuery : MessageType := 0x800f
@[match_pattern] def unassocStaLinkMetricsResponse : MessageType := 0x8010
@[match_pattern] def clientSteeringRequest : MessageType := 0x8014
@[match_pattern] def clientSteeringBtmRequest : MessageType := 0x8015
@[match_pattern] def clientAssocControlRequest : MessageType := 0x8016
@[match_pattern] def clientSteeringComplete : MessageType := 0x8017
@[match_pattern] def backhaulSteeringRequest : MessageType := 0x8019
@[match_pattern] def backhaulSteeringResponse : MessageType := 0x801a
@[match_pattern] def channelScanRequest : MessageType := 0x801b
@[match_pattern] def channelScanResponse : MessageType := 0x801c
@[match_pattern] def apMldConfigurationRequestMessage : MessageType := 0x8044
@[match_pattern] def apMldConfigurationResponseMessage : MessageType := 0x8045
@[match_pattern] def bstaMldConfigurationRequestMessage : MessageType := 0x8046
@[match_pattern] def bstaMldConfigurationResponseMessage : MessageType := 0x8047

end CmduTypes

/-- The `Process` methods of the agent. -/
inductive Handler where
  | processTopologyDiscovery
  | processTopologyNotification
  | processTopologyQuery
  | processTopologyResponse
  | processLinkMetricQuery
  | processLinkMetricResponse
  | processAutoconfigurationSearch
  | processAutoconfigurationResponse
  | processAutoconfigurationWsc
  | processAutoconfigurationRenew
  | processVendorSpecific
  | processHigherLayerQuery
  | processHigherLayerResponse
  | processGenericPhyQuery
  | processGenericPhyResponse
  | processApCapabilityQuery
  | processApCapabilityReport
  | processChannelPreferenceQuery
  | processChannelPreferenceReport
  | processChannelSelectionRequest
  | processChannelSelectionResponse
  | processOperatingChannelReport
  | processClientCapabilityQuery
  | processClientCapabilityReport
  | processAssocStaLinkMetricsQuery
  | processAssocStaLinkMetricsResponse
  | processUnassocStaLinkMetricsQuery
  | processUnassocStaLinkMetricsResponse
  | processClientSteeringRequest
  | processClientSteeringBtmRequest
  | processClientAssocControlRequest
  | processClientSteeringComplete
  | processBackhaulSteeringRequest
  | processBackhaulSteeringResponse
  | processChannelScanRequest
  | processChannelScanResponse
  | processApMldConfigurationRequest
  | processApMldConfigurationResponse
  | processBstaMldConfigurationRequest
  | processBstaMldConfigurationResponse
  deriving DecidableEq, Repr

/-- The `switch` of `HandleCmdu`; `none` is the default branch. -/
def dispatch (type : MessageType) : Option Handler :=
  match type with
  | CmduTypes.topologyDiscovery => some .processTopologyDiscovery
  | CmduTypes.topologyNotification => some .processTopologyNotification
  | CmduTypes.topologyQuery => some .processTopologyQuery
  | CmduTypes.topologyResponse => some .processTopologyResponse
  | CmduTypes.linkMetricQuery => some .processLinkMetricQuery
  | CmduTypes.linkMetricResponse => some .processLinkMetricResponse
  | CmduTypes.apAutoconfigurationSearch => some .processAutoconfigurationSearch
  | CmduTypes.apAutoconfigurationResponse => some .processAutoconfigurationResponse
  | CmduTypes.apAutoconfigurationWsc => some .processAutoconfigurationWsc
  | CmduTypes.apAutoconfigurationRenew => some .processAutoconfigurationRenew
  | CmduTypes.vendorSpecific => some .processVendorSpecific
  | CmduTypes.higherLayerQuery => some .processHigherLayerQuery
  | CmduTypes.higherLayerResponse => some .processHigherLayerResponse
  | CmduTypes.genericPhyQuery => some .processGenericPhyQuery
  | CmduTypes.genericPhyResponse => some .processGenericPhyResponse
  | CmduTypes.apCapabilityQuery => some .processApCapabilityQuery
  | CmduTypes.apCapabilityReport => some .processApCapabilityReport
  | CmduTypes.channelPreferenceQuery => some .processChannelPreferenceQuery
  | CmduTypes.channelPreferenceReport => some .processChannelPreferenceReport
  | CmduTypes.channelSelectionRequest => some .processChannelSelectionRequest
  | CmduTypes.channelSelectionResponse => some .processChannelSelectionResponse
  | CmduTypes.operatingChannelReport => some .processOperatingChannelReport
  | CmduTypes.clientCapabilityQuery => some .processClientCapabilityQuery
  | CmduTypes.clientCapabilityReport => some .processClientCapabilityReport
  | CmduTypes.assocStaLinkMetricsQuery => some .processAssocStaLinkMetricsQuery
  | CmduTypes.assocStaLinkMetricsResponse => some .processAssocStaLinkMetricsResponse
  | CmduTypes.unassocStaLinkMetricsQuery => some .processUnassocStaLinkMetricsQuery
  | CmduTypes.unassocStaLinkMetricsResponse => some .processUnassocStaLinkMetricsResponse
  | CmduTypes.clientSteeringRequest => some .processClientSteeringRequest
  | CmduTypes.clientSteeringBtmRequest => some .processClientSteeringBtmRequest
  | CmduTypes.clientAssocControlRequest => some .processClientAssocControlRequest
  | CmduTypes.clientSteeringComplete => some .processClientSteeringComplete
  | CmduTypes.backhaulSteeringRequest => some .processBackhaulSteeringRequest
  | CmduTypes.backhaulSteeringResponse => some .processBackhaulSteeringResponse
  | CmduTypes.channelScanRequest => some .processChannelScanRequest
  | CmduTypes.channelScanResponse => some .processChannelScanResponse
  | CmduTypes.apMldConfigurationRequestMessage => some .processApMldConfigurationRequest
  | CmduTypes.apMldConfigurationResponseMessage => some .processApMldConfigurationResponse
  | CmduTypes.bstaMldConfigurationRequestMessage => some .processBstaMldConfigurationRequest
  | CmduTypes.bstaMldConfigurationResponseMessage => some .processBstaMldConfigurationResponse
  | _ => none

/-! ## The agent -/

structure Ieee1905Agent where
  ifaceManager : InterfaceManager
  nextMessageId : MessageId
  /-- The CMDUs handed to `HandleCmdu` and the method that each went to, oldest first. -/
  handled : List (Cmdu × Option Handler)
  /-- The lines written to `std::cerr`. -/
  cerr : List String
  /-- What the agent and its `InterfaceManager` handed to the logger. -/
  log : Log
  deriving DecidableEq, Repr

namespace Ieee1905Agent

/-- The constructor; the `InterfaceManager` is constructed first. -/
def new (interfaceName : String) : Ieee1905Agent :=
  let (ifaceManager, log) := InterfaceManager.new interfaceName []
  ⟨ifaceManager, 1, [], [], log.emDebug ("Ieee1905Agent: Agent initialized on " ++ interfaceName)⟩

def emDebug (text : String) : EStateM Fault Ieee1905Agent PUnit :=
  modify fun agent => { agent with log := agent.log.emDebug text }

def emWarn (text : String) : EStateM Fault Ieee1905Agent PUnit :=
  modify fun agent => { agent with log := agent.log.emWarn text }

/-- `SPDLOG_DEBUG`, as it is compiled. -/
def spdlogDebug (_ : String) : EStateM Fault Ieee1905Agent PUnit := pure .unit

/-! ## The `Process` methods -/

def processTopologyDiscovery (_ : Cmdu) : EStateM Fault Ieee1905Agent PUnit :=
  emDebug "Ieee1905Agent: Processing Topology Discovery Request."

def processTopologyNotification (_ : Cmdu) : EStateM Fault Ieee1905Agent PUnit :=
  emDebug "Ieee1905Agent: Processing Topology Notification."

def processTopologyQuery (_ : Cmdu) : EStateM Fault Ieee1905Agent PUnit :=
  emDebug "Ieee1905Agent: Processing Topology Query."

def processTopologyResponse (_ : Cmdu) : EStateM Fault Ieee1905Agent PUnit :=
  emDebug "Ieee1905Agent: Processing Topology Response."

def processVendorSpecific (_ : Cmdu) : EStateM Fault Ieee1905Agent PUnit :=
  emDebug "Ieee1905Agent: Processing Vendor Specific."

def processLinkMetricQuery (_ : Cmdu) : EStateM Fault Ieee1905Agent PUnit :=
  emDebug "Ieee1905Agent: Processing Link Metric Query."

def processLinkMetricResponse (_ : Cmdu) : EStateM Fault Ieee1905Agent PUnit :=
  emDebug "Ieee1905Agent: Processing Link Metric Response."

def processAutoconfigurationSearch (_ : Cmdu) : EStateM Fault Ieee1905Agent PUnit :=
  emDebug "Ieee1905Agent: Processing Autoconfiguration Search."

def processAutoconfigurationResponse (_ : Cmdu) : EStateM Fault Ieee1905Agent PUnit :=
  emDebug "Ieee1905Agent: Processing Autoconfiguration Response."

def processAutoconfigurationWsc (_ : Cmdu) : EStateM Fault Ieee1905Agent PUnit :=
  emDebug "Ieee1905Agent: Processing Autoconfiguration WSC."

def processAutoconfigurationRenew (_ : Cmdu) : EStateM Fault Ieee1905Agent PUnit :=
  emDebug "Ieee1905Agent: Processing Autoconfiguration Renew."

def processHigherLayerQuery (_ : Cmdu) : EStateM Fault Ieee1905Agent PUnit :=
  emDebug "Ieee1905Agent: Processing Higher Layer Query."

def processHigherLayerResponse (_ : Cmdu) : EStateM Fault Ieee1905Agent PUnit :=
  emDebug "Ieee1905Agent: Processing Higher Layer Response."

def processGenericPhyQuery (_ : Cmdu) : EStateM Fault Ieee1905Agent PUnit :=
  emDebug "Ieee1905Agent: Processing Generic PHY Query."

def processGenericPhyResponse (_ : Cmdu) : EStateM Fault Ieee1905Agent PUnit :=
  emDebug "Ieee1905Agent: Processing Generic PHY Response."

def processClientCapabilityQuery (_ : Cmdu) : EStateM Fault Ieee1905Agent PUnit :=
  spdlogDebug "ProcessClientCapabilityQuery MID=\x7b\x7d"

def processClientCapabilityReport (_ : Cmdu) : EStateM Fault Ieee1905Agent PUnit :=
  spdlogDebug "ProcessClientCapabilityReport MID=\x7b\x7d"

def processApCapabilityQuery (_ : Cmdu) : EStateM Fault Ieee1905Agent PUnit :=
  spdlogDebug "ProcessApCapabilityQuery MID=\x7b\x7d"

def processApCapabilityReport (_ : Cmdu) : EStateM Fault Ieee1905Agent PUnit :=
  spdlogDebug "ProcessApCapabilityReport MID=\x7b\x7d"

def processChannelPreferenceQuery (_ : Cmdu) : EStateM Fault Ieee1905Agent PUnit :=
  spdlogDebug "ProcessChannelPreferenceQuery MID=\x7b\x7d"

def processChannelPreferenceReport (_ : Cmdu) : EStateM Fault Ieee1905Agent PUnit :=
  spdlogDebug "ProcessChannelPreferenceReport MID=\x7b\x7d"

def processChannelSelectionRequest (_ : Cmdu) : EStateM Fault Ieee1905Agent PUnit :=
  spdlogDebug "ProcessChannelSelectionRequest MID=\x7b\x7d"

def processChannelSelectionResponse (_ : Cmdu) : EStateM Fault Ieee1905Agent PUnit :=
  spdlogDebug "ProcessChannelSelectionResponse MID=\x7b\x7d"

def processChannelScanRequest (_ : Cmdu) : EStateM Fault Ieee1905Agent PUnit :=
  spdlogDebug "ProcessChannelScanRequest MID=\x7b\x7d"

def processChannelScanResponse (_ : Cmdu) : EStateM Fault Ieee1905Agent PUnit :=
  spdlogDebug "ProcessChannelScanResponse MID=\x7b\x7d"

def processOperatingChannelReport (_ : Cmdu) : EStateM Fault Ieee1905Agent PUnit :=
  spdlogDebug "ProcessOperatingChannelReport MID=\x7b\x7d"

def processAssocStaLinkMetricsQuery (_ : Cmdu) : EStateM Fault Ieee1905Agent PUnit :=
  spdlogDebug "ProcessAssocStaLinkMetricsQuery MID=\x7b\x7d"

def processAssocStaLinkMetricsResponse (_ : Cmdu) : EStateM Fault Ieee1905Agent PUnit :=
  spdlogDebug "ProcessAssocStaLinkMetricsResponse MID=\x7b\x7d"

def processUnassocStaLinkMetricsQuery (_ : Cmdu) : EStateM Fault Ieee1905Agent PUnit :=
  spdlogDebug "ProcessUnassocStaLinkMetricsQuery MID=\x7b\x7d"

def processUnassocStaLinkMetricsResponse (_ : Cmdu) : EStateM Fault Ieee1905Agent PUnit :=
  spdlogDebug "ProcessUnassocStaLinkMetricsResponse MID=\x7b\x7d"

def processClientSteeringRequest (_ : Cmdu) : EStateM Fault Ieee1905Agent PUnit :=
  spdlogDebug "ProcessClientSteeringRequest MID=\x7b\x7d"

def processClientSteeringBtmRequest (_ : Cmdu) : EStateM Fault Ieee1905Agent PUnit :=
  spdlogDebug "ProcessClientSteeringBtmRequest MID=\x7b\x7d"

def processClientSteeringComplete (_ : Cmdu) : EStateM Fault Ieee1905Agent PUnit :=
  spdlogDebug "ProcessClientSteeringComplete MID=\x7b\x7d"

def processClientAssocControlRequest (_ : Cmdu) : EStateM Fault Ieee1905Agent PUnit :=
  spdlogDebug "ProcessClientAssocControlRequest MID=\x7b\x7d"

def processBackhaulSteeringRequest (_ : Cmdu) : EStateM Fault Ieee1905Agent PUnit :=
  spdlogDebug "ProcessBackhaulSteeringRequest MID=\x7b\x7d"

def processBackhaulSteeringResponse (_ : Cmdu) : EStateM Fault Ieee1905Agent PUnit :=
  spdlogDebug "ProcessBackhaulSteeringResponse MID=\x7b\x7d"

def processApMldConfigurationRequest (_ : Cmdu) : EStateM Fault Ieee1905Agent PUnit :=
  spdlogDebug "ProcessApMldConfigurationRequest MID=\x7b\x7d"

def processApMldConfigurationResponse (_ : Cmdu) : EStateM Fault Ieee1905Agent PUnit :=
  spdlogDebug "ProcessApMldConfigurationResponse MID=\x7b\x7d"

def processBstaMldConfigurationRequest (_ : Cmdu) : EStateM Fault Ieee1905Agent PUnit :=
  spdlogDebug "ProcessBstaMldConfigurationRequest MID=\x7b\x7d"

def processBstaMldConfigurationResponse (_ : Cmdu) : EStateM Fault Ieee1905Agent PUnit :=
  spdlogDebug "ProcessBstaMldConfigurationResponse MID=\x7b\x7d"

/-- The method of a branch. -/
def process : Handler → Cmdu → EStateM Fault Ieee1905Agent PUnit
  | .processTopologyDiscovery => processTopologyDiscovery
  | .processTopologyNotification => processTopologyNotification
  | .processTopologyQuery => processTopologyQuery
  | .processTopologyResponse => processTopologyResponse
  | .processLinkMetricQuery => processLinkMetricQuery
  | .processLinkMetricResponse => processLinkMetricResponse
  | .processAutoconfigurationSearch => processAutoconfigurationSearch
  | .processAutoconfigurationResponse => processAutoconfigurationResponse
  | .processAutoconfigurationWsc => processAutoconfigurationWsc
  | .processAutoconfigurationRenew => processAutoconfigurationRenew
  | .processVendorSpecific => processVendorSpecific
  | .processHigherLayerQuery => processHigherLayerQuery
  | .processHigherLayerResponse => processHigherLayerResponse
  | .processGenericPhyQuery => processGenericPhyQuery
  | .processGenericPhyResponse => processGenericPhyResponse
  | .processApCapabilityQuery => processApCapabilityQuery
  | .processApCapabilityReport => processApCapabilityReport
  | .processChannelPreferenceQuery => processChannelPreferenceQuery
  | .processChannelPreferenceReport => processChannelPreferenceReport
  | .processChannelSelectionRequest => processChannelSelectionRequest
  | .processChannelSelectionResponse => processChannelSelectionResponse
  | .processOperatingChannelReport => processOperatingChannelReport
  | .processClientCapabilityQuery => processClientCapabilityQuery
  | .processClientCapabilityReport => processClientCapabilityReport
  | .processAssocStaLinkMetricsQuery => processAssocStaLinkMetricsQuery
  | .processAssocStaLinkMetricsResponse => processAssocStaLinkMetricsResponse
  | .processUnassocStaLinkMetricsQuery => processUnassocStaLinkMetricsQuery
  | .processUnassocStaLinkMetricsResponse => processUnassocStaLinkMetricsResponse
  | .processClientSteeringRequest => processClientSteeringRequest
  | .processClientSteeringBtmRequest => processClientSteeringBtmRequest
  | .processClientAssocControlRequest => processClientAssocControlRequest
  | .processClientSteeringComplete => processClientSteeringComplete
  | .processBackhaulSteeringRequest => processBackhaulSteeringRequest
  | .processBackhaulSteeringResponse => processBackhaulSteeringResponse
  | .processChannelScanRequest => processChannelScanRequest
  | .processChannelScanResponse => processChannelScanResponse
  | .processApMldConfigurationRequest => processApMldConfigurationRequest
  | .processApMldConfigurationResponse => processApMldConfigurationResponse
  | .processBstaMldConfigurationRequest => processBstaMldConfigurationRequest
  | .processBstaMldConfigurationResponse => processBstaMldConfigurationResponse

/-! ## Handling and receiving -/

/-- `{} (0x{:04x}), MID=0x{:04x}` in both lines of `HandleCmdu`. -/
def cmduText (type : MessageType) (mid : MessageId) : String :=
  cmduTypeToString type ++ " (0x" ++ hex04 type ++ "), MID=0x" ++ hex04 mid

def receivedText (type : MessageType) (mid : MessageId) : String := "Ieee1905Agent: Received CMDU " ++ cmduText type mid

def unhandledText (type : MessageType) (mid : MessageId) : String := "Ieee1905Agent: Unhandled CMDU " ++ cmduText type mid

def handleCmdu (cmdu : Cmdu) : EStateM Fault Ieee1905Agent PUnit := do
  let type := cmdu.getType
  let mid := cmdu.getId
  emDebug (receivedText type mid)
  modify fun agent => { agent with handled := agent.handled ++ [(cmdu, dispatch type)] }
  match dispatch type with
  | some handler => process handler cmdu
  | none => emWarn (unhandledText type mid)

/-- `catch (const std::exception& e)`: anything else goes on. -/
def reportException (e : Fault) : EStateM Fault Ieee1905Agent PUnit :=
  match e.what? with
  | some what => modify fun agent => { agent with cerr := agent.cerr ++ ["Error parsing CMDU: " ++ what] }
  | none => throw e

/-- The `try` block. -/
def handleReceived (rxBuffer : List UInt8) (len : ℕ) : EStateM Fault Ieee1905Agent PUnit := do
  let (receivedData, _) ← ofExcept (copy Fault.outOfBounds rxBuffer len 0)
  let cmdu ← ofExcept (MessageParser.parse receivedData)
  handleCmdu cmdu

/-- One round of the main loop; the result is the receive buffer. -/
def startRound (receivePacket : ReceivePacket) (rxBuffer : List UInt8) :
    EStateM Fault Ieee1905Agent (List UInt8) := do
  let (len, rxBuffer) := receivePacket rxBuffer
  if len > 0 then
    tryCatch (handleReceived rxBuffer len.toNat) reportException
  return rxBuffer

/-- The main loop for as many rounds as there are receptions. -/
def startRounds (receptions : List ReceivePacket) (rxBuffer : List UInt8) :
    EStateM Fault Ieee1905Agent (List UInt8) :=
  receptions.foldlM (fun rxBuffer receivePacket => startRound receivePacket rxBuffer) rxBuffer

/-- `std::vector<uint8_t> rx_buffer(2048)`. -/
def rxBufferSize : ℕ := 2048

/-- `Start` up to its loop. -/
def startLoop : EStateM Fault Ieee1905Agent (List UInt8) := do
  emDebug "Ieee1905Agent: Starting main loop..."
  return List.replicate rxBufferSize 0

def start (receptions : List ReceivePacket) : EStateM Fault Ieee1905Agent (List UInt8) := do
  let rxBuffer ← startLoop
  startRounds receptions rxBuffer

/-! ## The `Send` methods -/

def sendTopologyDiscovery : EStateM Fault Ieee1905Agent PUnit := do
  emDebug "Ieee1905Agent: Sending Topology Discovery..."
  let id ← modifyGet fun agent => (agent.nextMessageId, { agent with nextMessageId := agent.nextMessageId + 1 })
  let cmdu := Cmdu.new CmduTypes.topologyDiscovery id
  let macAddress := [0x11, 0x22, 0x33, 0x44, 0x55, 0x66]
  let cmdu := cmdu.addTlv (← ofExcept (Tlv.new TlvTypes.deviceInformationType macAddress))
  let packet ← ofExcept (MessageSerializer.pack cmdu)
  let multicastMac := [0x01, 0x80, 0xC2, 0x00, 0x00, 0x13]
  modify fun agent =>
    let (_, ifaceManager, log) := agent.ifaceManager.sendPacket packet multicastMac agent.log
    { agent with ifaceManager := ifaceManager, log := log }

def sendTopologyNotification : EStateM Fault Ieee1905Agent PUnit :=
  emDebug "Ieee1905Agent: Sending Topology Notification..."

def sendTopologyQuery : EStateM Fault Ieee1905Agent PUnit :=
  emDebug "Ieee1905Agent: Sending Topology Query..."

def sendTopologyResponse : EStateM Fault Ieee1905Agent PUnit :=
  emDebug "Ieee1905Agent: Sending Topology Response..."

def sendVendorSpecific : EStateM Fault Ieee1905Agent PUnit :=
  emDebug "Ieee1905Agent: Sending Vendor Specific..."

def sendLinkMetricQuery : EStateM Fault Ieee1905Agent PUnit :=
  emDebug "Ieee1905Agent: Sending Link Metric Query..."

def sendLinkMetricResponse : EStateM Fault Ieee1905Agent PUnit :=
  emDebug "Ieee1905Agent: Sending Link Metric Response..."

def sendAutoconfigrationSearch : EStateM Fault Ieee1905Agent PUnit :=
  emDebug "Ieee1905Agent: Sending Autoconfigration Search..."

def sendAutoconfigrationResponse : EStateM Fault Ieee1905Agent PUnit :=
  emDebug "Ieee1905Agent: Sending Autoconfigration Response..."

def sendAutoconfigrationWsc : EStateM Fault Ieee1905Agent PUnit :=
  emDebug "Ieee1905Agent: Sending Autoconfigration Wsc..."

def sendAutoconfigrationRenew : EStateM Fault Ieee1905Agent PUnit :=
  emDebug "Ieee1905Agent: Sending Autoconfigration Renew..."

def sendPushButtonEventNotification : EStateM Fault Ieee1905Agent PUnit :=
  emDebug "Ieee1905Agent: Sending Push Button Event Notification..."

def sendPushButtonJoinNotification : EStateM Fault Ieee1905Agent PUnit :=
  emDebug "Ieee1905Agent: Sending Push Button Join Notification..."

def sendHigherLayerQuery : EStateM Fault Ieee1905Agent PUnit :=
  emDebug "Ieee1905Agent: Sending Higher Layer Query..."

def sendHigherLayerResponse : EStateM Fault Ieee1905Agent PUnit :=
  emDebug "Ieee1905Agent: Sending Higher Layer Response..."

def sendInterfacePowerChangeRequest : EStateM Fault Ieee1905Agent PUnit :=
  emDebug "Ieee1905Agent: Sending Interface Power Change Request..."

def sendInterfacePowerChangeResponse : EStateM Fault Ieee1905Agent PUnit :=
  emDebug "Ieee1905Agent: Sending Interface Power Change Response..."

def sendGenericPhyQuery : EStateM Fault Ieee1905Agent PUnit :=
  emDebug "Ieee1905Agent: Sending Generic Phy Query..."

def sendGenericPhyResponse : EStateM Fault Ieee1905Agent PUnit :=
  emDebug "Ieee1905Agent: Sending Generic Phy Response..."

/-! ## Runs of calls -/

/-- The public calls on an agent, `Start` aside. -/
inductive Operation where
  | handleCmdu (cmdu : Cmdu)
  | sendTopologyDiscovery
  | sendTopologyNotification
  | sendTopologyQuery
  | sendTopologyResponse
  | sendVendorSpecific
  | sendLinkMetricQuery
  | sendLinkMetricResponse
  | sendAutoconfigrationSearch
  | sendAutoconfigrationResponse
  | sendAutoconfigrationWsc
  | sendAutoconfigrationRenew
  | sendPushButtonEventNotification
  | sendPushButtonJoinNotification
  | sendHigherLayerQuery
  | sendHigherLayerResponse
  | sendInterfacePowerChangeRequest
  | sendInterfacePowerChangeResponse
  | sendGenericPhyQuery
  | sendGenericPhyResponse
  deriving DecidableEq, Repr

def perform : Operation → EStateM Fault Ieee1905Agent PUnit
  | .handleCmdu cmdu => handleCmdu cmdu
  | .sendTopologyDiscovery => sendTopologyDiscovery
  | .sendTopologyNotification => sendTopologyNotification
  | .sendTopologyQuery => sendTopologyQuery
  | .sendTopologyResponse => sendTopologyResponse
  | .sendVendorSpecific => sendVendorSpecific
  | .sendLinkMetricQuery => sendLinkMetricQuery
  | .sendLinkMetricResponse => sendLinkMetricResponse
  | .sendAutoconfigrationSearch => sendAutoconfigrationSearch
  | .sendAutoconfigrationResponse => sendAutoconfigrationResponse
  | .sendAutoconfigrationWsc => sendAutoconfigrationWsc
  | .sendAutoconfigrationRenew => sendAutoconfigrationRenew
  | .sendPushButtonEventNotification => sendPushButtonEventNotification
  | .sendPushButtonJoinNotification => sendPushButtonJoinNotification
  | .sendHigherLayerQuery => sendHigherLayerQuery
  | .sendHigherLayerResponse => sendHigherLayerResponse
  | .sendInterfacePowerChangeRequest => sendInterfacePowerChangeRequest
  | .sendInterfacePowerChangeResponse => sendInterfacePowerChangeResponse
  | .sendGenericPhyQuery => sendGenericPhyQuery
  | .sendGenericPhyResponse => sendGenericPhyResponse

/-- A sequence of calls. -/
def performAll (operations : List Operation) : EStateM Fault Ieee1905Agent PUnit := operations.forM perform

end Ieee1905Agent

end Ieee1905

import Ieee1905.Model.Cmdu

/-!
# The log

`include/ieee1905_1/logger.h` and `CmduTypeToString`. What is handed to the logger is kept, one
line for each `EM_DEBUG` and `EM_WARN`; `SPDLOG_DEBUG` is compiled out at the default level of
spdlog.
-/

namespace Ieee1905

inductive Level where
  | debug
  | warn
  deriving DecidableEq, Repr

/-- A message as it is handed to the logger, with its arguments filled in. -/
abbrev Line := Level × String

/-- The lines, oldest first. -/
abbrev Log := List Line

def Log.emDebug (log : Log) (text : String) : Log := log ++ [(.debug, text)]

def Log.emWarn (log : Log) (text : String) : Log := log ++ [(.warn, text)]

/-- `{:04x}` of a `uint16_t`. -/
def hex04 (v : UInt16) : String :=
  String.ofList [Nat.digitChar (v.toNat / 4096), Nat.digitChar (v.toNat / 256 % 16), Nat.digitChar (v.toNat / 16 % 16),
    Nat.digitChar (v.toNat % 16)]

/-- The cases of the `switch` in `CmduTypeToString`. -/
def cmduTypeNames : List (MessageType × String) := [
    -- IEEE 1905.1 core
    (0x0000, "TOPOLOGY_DISCOVERY"),
    (0x0001, "TOPOLOGY_NOTIFICATION"),
    (0x0002, "TOPOLOGY_QUERY"),
    (0x0003, "TOPOLOGY_RESPONSE"),
    (0x0004, "VENDOR_SPECIFIC"),
    (0x0005, "LINK_METRIC_QUERY"),
    (0x0006, "LINK_METRIC_RESPONSE"),
    (0x0007, "AP_AUTOCONFIGURATION_SEARCH"),
    (0x0008, "AP_AUTOCONFIGURATION_RESPONSE"),
    (0x0009, "AP_AUTOCONFIGURATION_WSC"),
    (0x000a, "AP_AUTOCONFIGURATION_RENEW"),
    (0x000b, "PUSH_BUTTON_EVENT_NOTIFICATION"),
    (0x000c, "PUSH_BUTTON_JOIN_NOTIFICATION"),
    (0x000d, "HIGHER_LAYER_QUERY"),
    (0x000e, "HIGHER_LAYER_RESPONSE"),
    (0x000f, "INTERFACE_POWER_CHANGE_REQUEST"),
    (0x0010, "INTERFACE_POWER_CHANGE_RESPONSE"),
    (0x0011, "GENERIC_PHY_QUERY"),
    (0x0012, "GENERIC_PHY_RESPONSE"),
    -- EasyMesh / Multi-AP
    (0x8000, "ACK_1905"),
    (0x8001, "AP_CAPABILITY_QUERY"),
    (0x8002, "AP_CAPABILITY_REPORT"),
    (0x8003, "MAP_POLICY_CONFIG_REQUEST"),
    (0x8004, "CHANNEL_PREFERENCE_QUERY"),
    (0x8005, "CHANNEL_PREFERENCE_REPORT"),
    (0x8006, "CHANNEL_SELECTION_REQUEST"),
    (0x8007, "CHANNEL_SELECTION_RESPONSE"),
    (0x8008, "OPERATING_CHANNEL_REPORT"),
    (0x8009, "CLIENT_CAPABILITY_QUERY"),
    (0x800a, "CLIENT_CAPABILITY_REPORT"),
    (0x800b, "AP_LINK_METRICS_QUERY"),
    (0x800c, "AP_LINK_METRICS_RESPONSE"),
    (0x800d, "ASSOC_STA_LINK_METRICS_QUERY"),
    (0x800e, "ASSOC_STA_LINK_METRICS_RESPONSE"),
    (0x800f, "UNASSOC_STA_LINK_METRICS_QUERY"),
    (0x8010, "UNASSOC_STA_LINK_METRICS_RESPONSE"),
    (0x8011, "BEACON_METRICS_QUERY"),
    (0x8012, "BEACON_METRICS_RESPONSE"),
    (0x8013, "COMBINED_INFRASTRUCTURE_METRICS"),
    (0x8014, "CLIENT_STEERING_REQUEST"),
    (0x8015, "CLIENT_STEERING_BTM_REQUEST"),
    (0x8016, "CLIENT_ASSOC_CONTROL_REQUEST"),
    (0x8017, "CLIENT_STEERING_COMPLETE"),
    (0x8018, "HIGHER_LAYER_DATA_MESSAGE"),
    (0x8019, "BACKHAUL_STEERING_REQUEST"),
    (0x801a, "BACKHAUL_STEERING_RESPONSE"),
    (0x801b, "CHANNEL_SCAN_REQUEST"),
    (0x801c, "CHANNEL_SCAN_RESPONSE"),
    (0x801d, "DPP_CCE_INDICATION_MESSAGE"),
    (0x801e, "_1905_REKEY_REQUEST"),
    (0x801f, "_1905_DESCRIPTION_FAILURE"),
    (0x8020, "CAC_REQUEST"),
    (0x8021, "CAC_TERMINATION"),
    (0x8022, "CLIENT_DISASSOCIATION_STATS"),
    (0x8023, "SERVICE_PRIORITIZATION_STATS"),
    (0x8024, "ERROR_RESPONSE"),
    (0x8025, "ASSOCIATION_STATUS_NOTIFICATION"),
    (0x8026, "TUNNELED_MESSAGE"),
    (0x8027, "BACKHAUL_STA_CAP_QUERY_MESSAGE"),
    (0x8028, "BACKHAUL_STA_CAP_REPORT_MESSAGE"),
    (0x8029, "PROXIED_ENCAP_DPP_MESSAGE"),
    (0x802a, "DIRECT_ENCAP_DPP_MESSAGE"),
    (0x802b, "BSS_RECONFIGURATION_TRIGGER_MESSAGE"),
    (0x802c, "BSS_CONFIGURATION_REQUEST_MESSAGE"),
    (0x802d, "BSS_CONFIGURATION_RESPONSE_MESSAGE"),
    (0x802e, "BSS_CONFIGURATION_RESULT_MESSAGE"),
    (0x802f, "CHIRP_NOTIFICATION_MESSAGE"),
    (0x8030, "_1905_ENCAP_EAPOL"),
    (0x8031, "DPP_BOOTSTRAPING_URI_NOTIFICATION"),
    (0x8032, "DPP_BOOTSTRAPING_URI_QUERY"),
    (0x8033, "FAILED_CONNECTION_MESSAGE"),
    (0x8034, "DPP_URI_NOTIFICATION_MESSAGE"),
    (0x8035, "AGENT_LIST_MESSAGE"),
    (0x8037, "QOS_MANAGEMENT_NOTIFICATION"),
    (0x8043, "EARLY_AP_CAP_REPORT_MESSAGE"),
    (0x8044, "AP_MLD_CONFIGURATION_REQUEST_MESSAGE"),
    (0x8045, "AP_MLD_CONFIGURATION_RESPONSE_MESSAGE"),
    (0x8046, "BSTA_MLD_CONFIGURATION_REQUEST_MESSAGE"),
    (0x8047, "BSTA_MLD_CONFIGURATION_RESPONSE_MESSAGE"),
    (0x8048, "AFC_SPECTRUM_INQUIRY_MESSAGE"),
    -- Internal / debug
    (0x9000, "DEV_SEND_1905_REQUEST")]

def cmduTypeToString (type : MessageType) : String :=
  match cmduTypeNames.lookup type with
  | some name => name
  | none => "UNKNOWN_CMDU_TYPE"

end Ieee1905

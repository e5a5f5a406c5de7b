import Ieee1905.Model.Tlv

/-!
# `LldpPdu`

`include/ieee1905_1/lldp.h` and `src/lldp.cpp`. `AddTlv` takes its argument by rvalue
reference, so it runs on the PDU and on the caller's `Tlv`.
-/

namespace Ieee1905

namespace LldpTlvTypes

def endOfLldpdu : TlvType := 0
def organizationSpecific : TlvType := 127

end LldpTlvTypes

structure LldpPdu where
  tlvs : List Tlv
  deriving DecidableEq, Repr

namespace LldpPdu

def lldpTlvHeaderSize : ℕ := 2

/-- The constructor. -/
def new : LldpPdu := ⟨[]⟩

def getTlvs (pdu : LldpPdu) : List Tlv := pdu.tlvs

def addTlv : EStateM Fault (LldpPdu × Tlv) PUnit := do
  let (_, tlv) ← get
  if tlv.getType == LldpTlvTypes.endOfLldpdu then
    throw (.invalidArgument "END_OF_LLDPDU must not be added manually. It is managed by LldpPdu.")
  if tlv.getType > LldpTlvTypes.organizationSpecific then
    throw (.invalidArgument "LLDP TLV Type exceeds 7-bit limit (max 127).")
  if tlv.getLength > 0x1FF then
    throw (.lengthError "LLDP TLV Value length exceeds 9-bit limit (max 511 bytes).")
  modify fun (pdu, tlv) => ({ pdu with tlvs := pdu.tlvs ++ [tlv] }, tlv.movedFrom)

/-- The loop body of `GetPackedSize`. -/
def addPackedSize (totalSize : ℕ) (tlv : Tlv) : Except Fault ℕ := do
  if tlv.getLength > 0x1FF then
    throw (.runtimeError "Cannot pack: A TLV length exceeds 511 bytes.")
  return totalSize + (lldpTlvHeaderSize + tlv.getLength.toNat)

def getPackedSize (pdu : LldpPdu) : Except Fault ℕ := do
  let totalSize ← pdu.tlvs.foldlM addPackedSize 0
  return totalSize + lldpTlvHeaderSize -- END_OF_LLDPDU

/-! ## Runs of calls -/

/-- One `AddTlv` call; the caller goes on with the PDU after an exception. -/
def step (pdu : LldpPdu) (tlv : Tlv) : LldpPdu :=
  match addTlv.run (pdu, tlv) with
  | .ok _ (pdu, _) => pdu
  | .error _ (pdu, _) => pdu

/-- A sequence of `AddTlv` calls. -/
def addTlvs (pdu : LldpPdu) (tlvs : List Tlv) : LldpPdu := tlvs.foldl step pdu

end LldpPdu

end Ieee1905

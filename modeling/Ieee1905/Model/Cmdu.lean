import Ieee1905.Model.Tlv

/-!
# `Cmdu`

`include/ieee1905_1/cmdu.h` and `src/cmdu.cpp`. `std::vector<Tlv>` is a list: `back()` is
the last element, `pop_back()` drops it and `push_back()` appends.
-/

namespace Ieee1905

abbrev MessageVersion := UInt8
abbrev MessageType := UInt16
abbrev MessageId := UInt16
abbrev FragmentId := UInt8
abbrev MessageFlags := UInt8

namespace CmduFlags

def lastFragment : MessageFlags := 0x80

end CmduFlags

structure Cmdu where
  type : MessageType
  id : MessageId
  flags : MessageFlags
  fragmentId : FragmentId
  tlvs : List Tlv
  deriving DecidableEq, Repr

/-- `tlvs.empty() || tlvs.back().GetType() != TlvTypes::END_OF_MESSAGE`. -/
def lacksEndOfMessage (tlvs : List Tlv) : Bool :=
  match tlvs.getLast? with
  | some back => back.getType != TlvTypes.endOfMessage
  | none => true

namespace Cmdu

def messageVersion : MessageVersion := 0x00

/-- Version, reserved byte, type, id, fragment id, flags. -/
def cmduHeaderSize : ℕ := 1 + 1 + 2 + 2 + 1 + 1

/-- The constructor. -/
def new (type : MessageType) (id : MessageId) (flags : optParam MessageFlags CmduFlags.lastFragment)
    (fragmentId : optParam FragmentId 0) : Cmdu :=
  ⟨type, id, flags, fragmentId, []⟩

def getVersion (_ : Cmdu) : MessageVersion := messageVersion
def getType (cmdu : Cmdu) : MessageType := cmdu.type
def getId (cmdu : Cmdu) : MessageId := cmdu.id
def getFragmentId (cmdu : Cmdu) : FragmentId := cmdu.fragmentId
def getFlags (cmdu : Cmdu) : MessageFlags := cmdu.flags
def getTlvs (cmdu : Cmdu) : List Tlv := cmdu.tlvs

/-- `AddTlv` on the CMDU and on the caller's `Tlv`, which is taken by rvalue reference. -/
def addTlvFrom (cmdu : Cmdu) (tlv : Tlv) : Cmdu × Tlv :=
  match cmdu.tlvs.getLast? with
  | some endTlv =>
    if endTlv.getType == TlvTypes.endOfMessage then
      -- the terminator is popped and pushed again behind the new TLV
      ({ cmdu with tlvs := cmdu.tlvs.dropLast ++ [tlv] ++ [endTlv] }, tlv.movedFrom)
    else ({ cmdu with tlvs := cmdu.tlvs ++ [tlv] }, tlv.movedFrom)
  | none => ({ cmdu with tlvs := cmdu.tlvs ++ [tlv] }, tlv.movedFrom)

/-- What it makes of the CMDU. -/
def addTlv (cmdu : Cmdu) (tlv : Tlv) : Cmdu := (cmdu.addTlvFrom tlv).1

/-- The pointer `FindTlv` returns, `none` for `nullptr`. -/
def findTlv (cmdu : Cmdu) (type : TlvType) : Option Tlv := cmdu.tlvs.find? fun tlv => tlv.getType == type

/-- A sequence of `AddTlv` calls. -/
def addTlvs (cmdu : Cmdu) (tlvs : List Tlv) : Cmdu := tlvs.foldl addTlv cmdu

@[simp] theorem addTlvs_cons (cmdu : Cmdu) (tlv : Tlv) (tlvs : List Tlv) :
    cmdu.addTlvs (tlv :: tlvs) = (cmdu.addTlv tlv).addTlvs tlvs := rfl

end Cmdu

end Ieee1905

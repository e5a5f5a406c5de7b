import Ieee1905.Machine.Cursor
import Ieee1905.Machine.Emit
import Ieee1905.Machine.While
import Ieee1905.Model.Tlv
import Std.Data.ExtTreeMap

/-!
# `WscMessage`

`include/ieee1905_1/wsc.h` and `src/wsc.cpp`. `std::map` is an ordered map; a loop over it
visits the entries in the order of their keys.
-/

namespace Ieee1905

open Machine Std

namespace WscTlvType

def wscMessagingTlv : TlvType := TlvTypes.wsc

end WscTlvType

namespace WscAttributes

def wscVersion : UInt16 := 0x104A
def wscState : UInt16 := 0x104A
def wscAuthentication : UInt16 := 0x1004
def wscSsid : UInt16 := 0x1045

end WscAttributes

/-- `std::map<uint16_t, std::vector<uint8_t>>`. -/
abbrev AttributeMap := ExtTreeMap UInt16 (List UInt8)

structure WscMessage where
  attributes : AttributeMap

namespace WscMessage

def writeUint16Be (value : UInt16) : WriteM UInt8 Fault PUnit := putBe16 Fault.outOfBounds value

def readUint16Be (raw : List UInt8) (ptr : ℕ) : Except Fault (UInt16 × ℕ) := nextBe16 Fault.outOfBounds raw ptr

/-- The default constructor. -/
def empty : WscMessage := ⟨∅⟩

def addAttribute (attributeType : UInt16) (valueData : List UInt8) : EStateM Fault WscMessage PUnit := do
  if valueData.length > 0xFFFF then
    throw (.lengthError "WSC Attribute value length exceeds 16-bit limit.")
  modify fun m => { m with attributes := m.attributes.insert attributeType valueData }

/-! ## Packing -/

/-- The first pass. -/
def totalSize (m : WscMessage) : ℕ :=
  m.attributes.foldl (fun size _ value => size + (4 + value.length)) 0

def writeAttribute (pair : UInt16 × List UInt8) : WriteM UInt8 Fault PUnit := do
  let (attrType, attrValue) := pair
  let attrLength := UInt16.ofNat attrValue.length -- the cast to `uint16_t`
  writeUint16Be attrType
  writeUint16Be attrLength
  putAll Fault.outOfBounds attrValue

/-- The second pass, in the order of the map. -/
def writeAttributes (m : WscMessage) : WriteM UInt8 Fault PUnit := m.attributes.toList.forM writeAttribute

def packAttributes (m : WscMessage) : Except Fault (List UInt8) := do
  let w ← runOver 0 m.totalSize m.writeAttributes
  return w.buffer

def toTlv : EStateM Fault WscMessage Tlv := do
  let packedAttributes ← ofExcept (packAttributes (← get))
  ofExcept (Tlv.new WscTlvType.wscMessagingTlv packedAttributes)

/-! ## Parsing -/

/-- The body of the attribute loop. As in the TLV loop, the pointer differences are never
negative. -/
def readAttribute (raw : List UInt8) (s : ℕ × AttributeMap) : Except Fault (Flow (ℕ × AttributeMap)) := do
  let (ptr, attributes) := s
  if raw.length - ptr < 4 then
    throw (.runtimeError "Incomplete WSC Attribute header in WscMessage.")
  let (attrType, ptr) ← readUint16Be raw ptr
  let (attrLength, ptr) ← readUint16Be raw ptr
  if raw.length - ptr < attrLength.toNat then
    throw (.runtimeError "WSC Attribute value truncated.")
  let (value, ptr) ← copy Fault.outOfBounds raw attrLength.toNat ptr
  return .next (ptr, attributes.insert attrType value)

/-- The attribute loop over a cleared map. -/
def parseAttributes (raw : List UInt8) : Except Fault AttributeMap := do
  let (_, attributes) ← whileLoop .exhausted (beforeEnd raw) (readAttribute raw) (raw.length + 1) (0, ∅)
  return attributes

/-- The constructor from raw data. -/
def ofRaw (raw : List UInt8) : Except Fault WscMessage := do
  let attributes ← parseAttributes raw
  return ⟨attributes⟩

def getAttributeValue (m : WscMessage) (attributeType : UInt16) : List UInt8 :=
  match m.attributes[attributeType]? with
  | some value => value
  | none => []

/-! ## Runs of calls -/

/-- One `AddAttribute` call; the caller goes on with the object after an exception. -/
def step (m : WscMessage) (call : UInt16 × List UInt8) : WscMessage :=
  match (addAttribute call.1 call.2).run m with
  | .ok _ m => m
  | .error _ m => m

/-- A sequence of `AddAttribute` calls. -/
def addAttributes (m : WscMessage) (calls : List (UInt16 × List UInt8)) : WscMessage := calls.foldl step m

theorem addAttribute_ok {attributeType : UInt16} {valueData : List UInt8} (fits : valueData.length ≤ 0xFFFF)
    (m : WscMessage) :
    (addAttribute attributeType valueData).run m = .ok .unit ⟨m.attributes.insert attributeType valueData⟩ := by
  rw [addAttribute, if_neg (Nat.not_lt.mpr fits)]
  rfl

theorem addAttribute_throws {attributeType : UInt16} {valueData : List UInt8} (long : 0xFFFF < valueData.length)
    (m : WscMessage) :
    (addAttribute attributeType valueData).run m =
      .error (.lengthError "WSC Attribute value length exceeds 16-bit limit.") m := by
  rw [addAttribute, if_pos long]
  rfl

end WscMessage

end Ieee1905

import Ieee1905.Codec.Announced
import Ieee1905.Model.Fault

/-!
# `Tlv`

`include/ieee1905_1/tlv.h` and `src/tlv.cpp`. The constructors refuse a value of more than
65535 bytes, so every `Tlv` carries that bound.
-/

namespace Ieee1905

abbrev TlvType := UInt8
abbrev TlvLength := UInt16

namespace TlvTypes

def endOfMessage : TlvType := 0
def deviceInformationType : TlvType := 3
def wsc : TlvType := 17

end TlvTypes

structure Tlv where
  type : TlvType
  value : List UInt8
  fits : value.length ≤ 0xFFFF
  deriving DecidableEq, Repr

namespace Tlv

/-- `sizeof(TlvType) + sizeof(TlvLength)`. -/
def tlvHeaderSize : ℕ := 3

/-- The constructors; copying and moving the value read the same. -/
def new (type : TlvType) (valueData : List UInt8) : Except Fault Tlv :=
  if h : valueData.length > 0xFFFF then
    .error (.lengthError "TLV value length exceeds maximum 16-bit limit (65535 bytes).")
  else
    .ok ⟨type, valueData, Nat.le_of_not_gt h⟩

def getType (tlv : Tlv) : TlvType := tlv.type

/-- `static_cast<TlvLength>(m_value.size())`. -/
def getLength (tlv : Tlv) : TlvLength := UInt16.ofNat tlv.value.length

def getValue (tlv : Tlv) : List UInt8 := tlv.value

def getPacketSize (tlv : Tlv) : ℕ := tlvHeaderSize + tlv.value.length

/-- What the move constructor leaves of its argument: the type, and an empty vector. -/
def movedFrom (tlv : Tlv) : Tlv := ⟨tlv.type, [], Nat.zero_le _⟩

theorem new_ok {type : TlvType} {value : List UInt8} (fits : value.length ≤ 0xFFFF) :
    new type value = .ok ⟨type, value, fits⟩ := by
  rw [new, dif_neg (Nat.not_lt.mpr fits)]

theorem new_throws {type : TlvType} {value : List UInt8} (long : 0xFFFF < value.length) :
    ThrowsLengthError (new type value) :=
  ⟨_, by rw [new, dif_pos long]⟩

/-- The cast to 16 bits loses nothing. -/
theorem toNat_getLength (tlv : Tlv) : tlv.getLength.toNat = tlv.value.length := Codec.toNat_ofNat_of_le tlv.fits

/-- A terminator: the type is END_OF_MESSAGE, whatever the value. -/
def isEnd (tlv : Tlv) : Bool := tlv.type == TlvTypes.endOfMessage

theorem isEnd_iff {tlv : Tlv} : tlv.isEnd = true ↔ tlv.getType = TlvTypes.endOfMessage := beq_iff_eq

theorem isEnd_eq_false_iff {tlv : Tlv} : tlv.isEnd = false ↔ tlv.getType ≠ TlvTypes.endOfMessage :=
  beq_eq_false_iff_ne

/-- A terminator is of no other type. -/
theorem getType_of_isEnd {type : TlvType} (other : type ≠ TlvTypes.endOfMessage) (tlv : Tlv) (isEnd : tlv.isEnd = true) :
    (tlv.getType == type) = false := by
  rw [isEnd_iff.mp isEnd]
  exact beq_eq_false_iff_ne.mpr other.symm

end Tlv

/-- The terminator that carries nothing. -/
def emptyEnd : Tlv := ⟨TlvTypes.endOfMessage, [], by decide⟩

@[simp] theorem isEnd_emptyEnd : emptyEnd.isEnd = true := rfl

end Ieee1905

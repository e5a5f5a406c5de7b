import Ieee1905.Machine.Cursor
import Ieee1905.Machine.While
import Ieee1905.Model.Cmdu

/-!
# `MessageParser`

`src/parser.cpp`. Pointers are offsets into the buffer, `end_ptr` is its size, and every
byte is read through a checked cursor.
-/

namespace Ieee1905.MessageParser

open Machine

def readUint16 (buffer : List UInt8) (ptr : ℕ) : Except Fault (UInt16 × ℕ) :=
  nextBe16 Fault.outOfBounds buffer ptr

def readUint8 (buffer : List UInt8) (ptr : ℕ) : Except Fault (UInt8 × ℕ) :=
  next Fault.outOfBounds buffer ptr

/-- The header fields, in the order of the wire. -/
def readHeader (buffer : List UInt8) (ptr : ℕ) : Except Fault (Cmdu × ℕ) := do
  let (_, ptr) ← readUint8 buffer ptr -- version
  let (_, ptr) ← readUint8 buffer ptr -- reserved
  let (type, ptr) ← readUint16 buffer ptr
  let (id, ptr) ← readUint16 buffer ptr
  let (fragmentId, ptr) ← readUint8 buffer ptr
  let (flags, ptr) ← readUint8 buffer ptr
  return (Cmdu.new type id flags fragmentId, ptr)

/-- The body of the TLV loop. The test `ptr < end_ptr` and the first check keep the
pointer differences non-negative, where subtraction of naturals is exact. -/
def readTlv (buffer : List UInt8) (s : ℕ × Cmdu) : Except Fault (Flow (ℕ × Cmdu)) := do
  let (ptr, cmdu) := s
  if buffer.length - ptr < Tlv.tlvHeaderSize then
    throw (.runtimeError "Incomplete TLV header found at end of buffer.")
  let (tlvType, ptr) ← readUint8 buffer ptr
  let (tlvLength, ptr) ← readUint16 buffer ptr
  if buffer.length - ptr < tlvLength.toNat then
    throw (.runtimeError "Buffer ended prematurely while reading TLV value.")
  let (value, ptr) ← copy Fault.outOfBounds buffer tlvLength.toNat ptr
  let tlv ← Tlv.new tlvType value
  let cmdu := cmdu.addTlv tlv
  if tlvType == TlvTypes.endOfMessage then
    return .leave (ptr, cmdu)
  return .next (ptr, cmdu)

/-- The TLV loop. -/
def readTlvs (buffer : List UInt8) (s : ℕ × Cmdu) : Except Fault (ℕ × Cmdu) :=
  whileLoop .exhausted (beforeEnd buffer) (readTlv buffer) (buffer.length + 1) s

def parse (buffer : List UInt8) : Except Fault Cmdu := do
  if buffer.length < Cmdu.cmduHeaderSize then
    throw (.runtimeError "Buffer size is smaller than the minimum CMDU header size.")
  let (cmdu, ptr) ← readHeader buffer 0
  let (_, cmdu) ← readTlvs buffer (ptr, cmdu)
  if lacksEndOfMessage cmdu.getTlvs then
    throw (.runtimeError "CMDU does not terminate with END_OF_MESSAGE TLV.")
  return cmdu

end Ieee1905.MessageParser

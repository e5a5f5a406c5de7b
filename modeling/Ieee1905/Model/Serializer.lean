import Ieee1905.Machine.Emit
import Ieee1905.Model.Cmdu

/-!
# `MessageSerializer`

`src/serializer.cpp`. `Pack` sizes the buffer in one pass over the TLVs and fills it in
another; the writes go through a checked cursor.
-/

namespace Ieee1905.MessageSerializer

open Machine

def writeUint16 (value : UInt16) : WriteM UInt8 Fault PUnit := putBe16 Fault.outOfBounds value

def writeUint8 (value : UInt8) : WriteM UInt8 Fault PUnit := put Fault.outOfBounds value

def appendEndOfMessage (cmdu : Cmdu) : Bool := lacksEndOfMessage cmdu.getTlvs

/-- The first pass. -/
def totalSize (cmdu : Cmdu) : ℕ :=
  let size := cmdu.getTlvs.foldl (fun size tlv => size + tlv.getPacketSize) Cmdu.cmduHeaderSize
  if appendEndOfMessage cmdu then size + Tlv.tlvHeaderSize else size

def writeTlv (tlv : Tlv) : WriteM UInt8 Fault PUnit := do
  writeUint8 tlv.getType
  writeUint16 tlv.getLength
  putAll Fault.outOfBounds tlv.getValue

/-- The second pass. -/
def writeCmdu (cmdu : Cmdu) : WriteM UInt8 Fault PUnit := do
  writeUint8 cmdu.getVersion
  writeUint8 0 -- reserved
  writeUint16 cmdu.getType
  writeUint16 cmdu.getId
  writeUint8 cmdu.getFragmentId
  writeUint8 cmdu.getFlags
  cmdu.getTlvs.forM writeTlv
  if appendEndOfMessage cmdu then do
    writeUint8 TlvTypes.endOfMessage
    writeUint16 0

def pack (cmdu : Cmdu) : Except Fault (List UInt8) := do
  let w ← runOver 0 (totalSize cmdu) (writeCmdu cmdu)
  return w.buffer

end Ieee1905.MessageSerializer

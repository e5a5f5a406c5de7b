import Ieee1905.Wsc.Attributes

/-!
# From `ToTlv` to the parsing constructor

`PackAttributes` writes the entries of the map in its order, attribute by attribute, and
the parsing constructor reads them back into the same map (`ofRaw_packedBytes`). The
values of a reachable message fit their length fields; whether all of them together fit a
TLV is decided by its constructor.
-/

namespace Ieee1905.Wsc

open Codec Machine Std WscMessage

/-- The attributes back to back, in the order of the map. -/
def packedBytes (m : WscMessage) : List UInt8 := m.attributes.toList.flatMap encodePair

/-! ## Packing -/

theorem emits_writeAttribute (pair : UInt16 × List UInt8) : Emits (writeAttribute pair) (encodePair pair) := by
  have value := Emits.putAll Fault.outOfBounds pair.2
  have length := (Emits.putBe16 Fault.outOfBounds (UInt16.ofNat pair.2.length)).seq value
  have type := (Emits.putBe16 Fault.outOfBounds pair.1).seq length
  rw [encodePair, List.append_assoc]
  exact type

theorem totalSize_eq (m : WscMessage) : m.totalSize = (m.attributes.toList.map fun p => 4 + p.2.length).sum := by
  rw [totalSize, ExtTreeMap.foldl_eq_foldl_toList, List.sum_eq_foldl, List.foldl_map]

theorem length_packedBytes (m : WscMessage) : (packedBytes m).length = m.totalSize := by
  rw [totalSize_eq, packedBytes, List.length_flatMap]
  simp only [length_encodePair]

/-- No write leaves the buffer and the cursor ends at its end, whatever was there before. -/
theorem runOver_writeAttributes (m : WscMessage) (old : UInt8) :
    runOver old m.totalSize m.writeAttributes = .ok ⟨packedBytes m, m.totalSize⟩ := by
  rw [← length_packedBytes]
  exact (Emits.forM emits_writeAttribute m.attributes.toList).fill old

theorem packAttributes_eq (m : WscMessage) : m.packAttributes = .ok (packedBytes m) := by
  rw [packAttributes, runOver_writeAttributes]
  rfl

/-- `ToTlv` hands the packed attributes to the constructor of `Tlv`, which decides. -/
theorem toTlv_ok {m : WscMessage} (fits : Fits (packedBytes m)) :
    toTlv.run m = .ok ⟨TlvTypes.wsc, packedBytes m, fits⟩ m := by
  simp only [toTlv, EStateM.run_bind, EStateM.run_get, packAttributes_eq, run_ofExcept_ok, WscTlvType.wscMessagingTlv,
    Tlv.new_ok fits]

theorem toTlv_throws {m : WscMessage} (long : 0xFFFF < (packedBytes m).length) :
    ∃ what, toTlv.run m = .error (.lengthError what) m := by
  obtain ⟨what, throws⟩ : ThrowsLengthError (Tlv.new TlvTypes.wsc (packedBytes m)) := Tlv.new_throws long
  refine ⟨what, ?_⟩
  simp only [toTlv, EStateM.run_bind, EStateM.run_get, packAttributes_eq, run_ofExcept_ok, WscTlvType.wscMessagingTlv,
    throws, run_ofExcept_error]

theorem toTlv_ok_iff {m m' : WscMessage} {tlv : Tlv} :
    toTlv.run m = .ok tlv m' ↔ ∃ fits : Fits (packedBytes m), tlv = ⟨TlvTypes.wsc, packedBytes m, fits⟩ ∧ m' = m := by
  constructor
  · intro run
    rcases Nat.lt_or_ge 0xFFFF (packedBytes m).length with long | fits
    · obtain ⟨what, throws⟩ := toTlv_throws long
      rw [throws] at run
      cases run
    · rw [toTlv_ok fits] at run
      cases run
      exact ⟨fits, rfl, rfl⟩
  · rintro ⟨fits, rfl, rfl⟩
    exact toTlv_ok fits

/-! ## Reachable messages -/

/-- What the constructors and `AddAttribute` calls, rejected ones included, lead to. -/
inductive Reachable : WscMessage → Prop where
  | empty : Reachable WscMessage.empty
  | parsed {raw : List UInt8} {m : WscMessage} (accepted : ofRaw raw = .ok m) : Reachable m
  | called {m : WscMessage} (reached : Reachable m) (call : UInt16 × List UInt8) : Reachable (m.step call)

/-- One call keeps values short enough for their length field. -/
theorem fits_step {m : WscMessage} (all : Everywhere Fits m.attributes) (call : UInt16 × List UInt8) :
    Everywhere Fits (m.step call).attributes := by
  obtain ⟨type, value⟩ := call
  rcases Nat.lt_or_ge 0xFFFF value.length with long | fits
  · rw [step, addAttribute_throws long]
    exact all
  · rw [step, addAttribute_ok fits]
    exact all.insert type fits

theorem fits_ofAttributes (as : List Attribute) : Everywhere Fits (ofAttributes as).attributes := by
  apply (Everywhere.empty Fits).insertMany
  intro p member
  obtain ⟨a, -, rfl⟩ := List.mem_map.mp member
  exact a.2

/-- **Every value of a reachable message fits its length field.** -/
theorem Reachable.fits {m : WscMessage} (reached : Reachable m) : Everywhere Fits m.attributes := by
  induction reached with
  | empty => exact Everywhere.empty Fits
  | parsed accepted =>
    obtain ⟨as, -, rfl⟩ := ofRaw_ok_iff.mp accepted
    exact fits_ofAttributes as
  | called _ call ih => exact fits_step ih call

/-! ## The round trip -/

/-- The entries of a map whose values fit. -/
def attributesOf {m : WscMessage} (fits : Everywhere Fits m.attributes) : List Attribute :=
  m.attributes.toList.attachWith (fun p => Fits p.2) fun _ member => fits.of_mem_toList member

theorem map_attributesOf {m : WscMessage} (fits : Everywhere Fits m.attributes) :
    (attributesOf fits).map Subtype.val = m.attributes.toList := by
  rw [attributesOf, List.attachWith_map_subtype_val]

theorem packedBytes_eq {m : WscMessage} (fits : Everywhere Fits m.attributes) :
    packedBytes m = attributeCode.encAll (attributesOf fits) := by
  rw [packedBytes, ← map_attributesOf fits, List.flatMap_map]
  rfl

/-- The packed attributes read back as the map they came from. -/
theorem ofRaw_packedBytes {m : WscMessage} (fits : Everywhere Fits m.attributes) : ofRaw (packedBytes m) = .ok m := by
  rw [packedBytes_eq fits, ofRaw_encAll, ofAttributes, map_attributesOf, insertMany_toList]

/-- The bytes that the attributes take up. -/
def attributesSize (m : WscMessage) : ℕ := (m.attributes.toList.map fun p => 4 + p.2.length).sum

theorem length_packedBytes_sum (m : WscMessage) : (packedBytes m).length = attributesSize m := by
  rw [length_packedBytes, totalSize_eq]
  rfl

/-- **`ToTlv` and back.** For every reachable message `ToTlv` succeeds exactly when its
attributes fit a TLV together, throws `std::length_error` otherwise, and leaves the message
as it is; the value of the TLV reads back as the same attributes, which pack to the same
TLV. -/
theorem toTlv_roundTrip {m : WscMessage} (reached : Reachable m) :
    ((∃ tlv, toTlv.run m = .ok tlv m) ↔ attributesSize m ≤ 65535) ∧
    (65535 < attributesSize m → ∃ what, toTlv.run m = .error (.lengthError what) m) ∧
    (∀ tlv m', toTlv.run m = .ok tlv m' → m' = m ∧ tlv.getType = TlvTypes.wsc ∧
      ∃ rebuilt, ofRaw tlv.getValue = .ok rebuilt ∧ rebuilt.attributes = m.attributes ∧
        (∀ type, rebuilt.getAttributeValue type = m.getAttributeValue type) ∧
        toTlv.run rebuilt = .ok tlv rebuilt) := by
  have size := length_packedBytes_sum m
  refine ⟨⟨?_, ?_⟩, ?_, ?_⟩
  · rintro ⟨tlv, run⟩
    by_contra long
    obtain ⟨what, throws⟩ := toTlv_throws (m := m) (by omega)
    rw [throws] at run
    cases run
  · intro enough
    exact ⟨_, toTlv_ok (m := m) (by unfold Fits; omega)⟩
  · intro long
    exact toTlv_throws (by omega)
  · intro tlv m' run
    obtain ⟨fits, rfl, rfl⟩ := toTlv_ok_iff.mp run
    exact ⟨rfl, rfl, _, ofRaw_packedBytes reached.fits, rfl, fun _ => rfl, toTlv_ok fits⟩

/-- One attribute of four bytes. -/
theorem toTlv_roundTrip_ssid :
    ∃ rebuilt, ofRaw [0x10, 0x45, 0, 4, 0x68, 0x6F, 0x6D, 0x65] = .ok rebuilt ∧
      rebuilt.getAttributeValue WscAttributes.wscSsid = [0x68, 0x6F, 0x6D, 0x65] := by
  have run : toTlv.run (WscMessage.empty.step (WscAttributes.wscSsid, [0x68, 0x6F, 0x6D, 0x65])) =
      .ok ⟨TlvTypes.wsc, [0x10, 0x45, 0, 4, 0x68, 0x6F, 0x6D, 0x65], by decide⟩
        (WscMessage.empty.step (WscAttributes.wscSsid, [0x68, 0x6F, 0x6D, 0x65])) := rfl
  obtain ⟨-, -, rebuilt, read, -, agree, -⟩ := (toTlv_roundTrip (.called .empty _)).2.2 _ _ run
  exact ⟨rebuilt, read, agree WscAttributes.wscSsid⟩

end Ieee1905.Wsc

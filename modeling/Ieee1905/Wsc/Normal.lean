import Ieee1905.Wsc.Grammar

/-!
# The normal form of attributes

`PackAttributes` writes the entries of the map in the order of their types, each once. So
what it writes is a normal form: data that is parsed and packed again loses the attributes
that a later one overrides, is sorted by type and never grows (`packAttributes_normalises`).
-/

namespace Ieee1905.Wsc

open Codec Machine Std WscMessage

/-- The packed bytes as a concatenation of the entries of the map. -/
theorem concatenates_packedBytes {m : WscMessage} (fits : Everywhere Fits m.attributes) :
    Concatenates (packedBytes m) m.attributes.toList := by
  rw [packedBytes_eq fits]
  have split := concatenates_encAll (attributesOf fits)
  rwa [map_attributesOf] at split

theorem fits_lastValues {as : List (UInt16 × List UInt8)} (lengths : ∀ a ∈ as, a.2.length ≤ 65535) :
    Everywhere Fits (lastValues as).attributes :=
  (Everywhere.empty Fits).insertMany lengths

/-- **Received attributes are normalised, not corrupted**: packed again, they are sorted by
type, with the last value of each, no longer than they were and the same bytes exactly when
they were sorted; and a second round changes nothing. -/
theorem packAttributes_normalises {raw : List UInt8} {as : List (UInt16 × List UInt8)} {m : WscMessage}
    (split : Concatenates raw as) (accepted : ofRaw raw = .ok m) :
    ∃ packed bs, m.packAttributes = .ok packed ∧ Concatenates packed bs ∧ Increasing bs ∧
      (∀ type value, (type, value) ∈ bs ↔ lastWrite type as = some value) ∧
      packed.length ≤ raw.length ∧
      (∀ tlv : Tlv, tlv.getValue = raw → ∃ rebuilt, toTlv.run m = .ok rebuilt m) ∧
      (packed = raw ↔ Increasing as) ∧
      ofRaw packed = .ok m ∧ (ofRaw packed >>= packAttributes) = .ok packed := by
  rw [ofRaw_concatenates split] at accepted
  obtain rfl := Except.ok.inj accepted
  have fits := fits_lastValues split.lengths
  have packed := concatenates_packedBytes fits
  have again := ofRaw_packedBytes fits
  have shorter : (packedBytes (lastValues as)).length ≤ raw.length := by
    rw [split.bytes]
    exact length_flatMap_toList_le encodePair as
  refine ⟨_, _, packAttributes_eq _, packed, increasing_toList _, ?_, shorter, ?_, ?_, again, ?_⟩
  · intro type value
    exact mem_toList_insertMany as (type, value)
  · rintro tlv rfl
    have whole : Fits (packedBytes (lastValues as)) := Nat.le_trans shorter tlv.fits
    exact ⟨_, toTlv_ok whole⟩
  · have sorted : (lastValues as).attributes.toList = as ↔ Increasing as := toList_insertMany_eq_iff as
    rw [← sorted]
    constructor
    · intro same
      rw [same] at packed
      exact packed.unique split
    · intro same
      rw [packed.bytes, split.bytes, same]
  · rw [again]
    exact packAttributes_eq _

/-- Two values of one type and a smaller type behind them: the first value goes, and the types
change places. -/
theorem packAttributes_normalises_ssid :
    ∃ packed bs, packAttributes (lastValues [(0x1045, [1]), (0x1045, [2]), (0x1004, [])]) = .ok packed ∧
      Concatenates packed bs ∧ Increasing bs ∧ packed.length ≤ 14 := by
  have split : Concatenates [0x10, 0x45, 0, 1, 1, 0x10, 0x45, 0, 1, 2, 0x10, 0x04, 0, 0]
      [(0x1045, [1]), (0x1045, [2]), (0x1004, [])] := ⟨by decide, by decide⟩
  obtain ⟨packed, bs, run, whole, sorted, -, shorter, -⟩ := packAttributes_normalises split (ofRaw_concatenates split)
  exact ⟨packed, bs, run, whole, sorted, shorter⟩

/-! ## The write pass -/

/-- **The writer of `PackAttributes` fills the buffer that was sized for it**, for every
reachable message, also where the total does not fit a TLV: every length is the number of
value bytes behind it, and the attributes stand in the order of their types. -/
theorem packAttributes_fills {m : WscMessage} (reached : Reachable m) :
    (∀ (type : UInt16) (value : List UInt8), m.attributes[type]? = some value →
      value.length ≤ 65535 ∧ (UInt16.ofNat value.length).toNat = value.length) ∧
    ∃ bytes, (∀ old, runOver old m.totalSize m.writeAttributes = .ok ⟨bytes, m.totalSize⟩) ∧
      m.packAttributes = .ok bytes ∧ bytes.length = m.totalSize ∧
      bytes = m.attributes.toList.flatMap (fun a => be16 a.1 ++ be16 (UInt16.ofNat a.2.length) ++ a.2) ∧
      Increasing m.attributes.toList ∧
      ∀ (type : UInt16) (value : List UInt8), (type, value) ∈ m.attributes.toList ↔ m.attributes[type]? = some value := by
  have fits := reached.fits
  constructor
  · intro type value found
    have short : value.length ≤ 65535 := fits type value found
    exact ⟨short, toNat_ofNat_of_le short⟩
  · refine ⟨packedBytes m, runOver_writeAttributes m, packAttributes_eq m, length_packedBytes m,
      (concatenates_packedBytes fits).bytes, increasing_toList _, ?_⟩
    intro type value
    exact ExtTreeMap.mem_toList_iff_getElem?_eq_some

/-- A message after one call. -/
theorem packAttributes_fills_ssid :
    ∃ bytes, packAttributes (WscMessage.empty.step (WscAttributes.wscSsid, [0x68])) = .ok bytes ∧
      bytes.length = 5 := by
  obtain ⟨-, bytes, -, packed, size, -⟩ := packAttributes_fills (.called .empty (WscAttributes.wscSsid, [0x68]))
  exact ⟨bytes, packed, size⟩

end Ieee1905.Wsc

import Ieee1905.Wsc.Grammar

/-!
# Attributes by name

A run of `AddAttribute` calls leaves, under each type, the last value that was not
rejected (`addAttributes_attributes`). The names of `WscAttributes` are types of the map,
and two of them are the same type: `WSC_VERSION` and `WSC_STATE` read each other's values,
the other names read their own (`getAttributeValue_named`).
-/

namespace Ieee1905.Wsc

open Codec Std WscMessage

/-! ## What a run of calls leaves behind -/

/-- The calls that are not rejected. -/
def acceptedCalls (calls : List (UInt16 × List UInt8)) : List (UInt16 × List UInt8) :=
  calls.filter fun call => call.2.length ≤ 0xFFFF

theorem addAttributes_attributes (m : WscMessage) (calls : List (UInt16 × List UInt8)) :
    (m.addAttributes calls).attributes = m.attributes.insertMany (acceptedCalls calls) := by
  induction calls generalizing m with
  | nil => exact ExtTreeMap.insertMany_nil.symm
  | cons call calls ih =>
    show ((m.step call).addAttributes calls).attributes = _
    rw [ih]
    rcases Nat.lt_or_ge 0xFFFF call.2.length with long | fits
    · have rejected : acceptedCalls (call :: calls) = acceptedCalls calls := by
        simp [acceptedCalls, long]
      rw [rejected, step, addAttribute_throws long]
    · have kept : acceptedCalls (call :: calls) = call :: acceptedCalls calls := by
        simp [acceptedCalls, fits]
      rw [kept, ExtTreeMap.insertMany_cons, step, addAttribute_ok fits]

theorem empty_addAttributes (calls : List (UInt16 × List UInt8)) :
    WscMessage.empty.addAttributes calls = lastValues (acceptedCalls calls) :=
  congrArg WscMessage.mk (addAttributes_attributes WscMessage.empty calls)

theorem reachable_addAttributes {m : WscMessage} (reached : Reachable m) (calls : List (UInt16 × List UInt8)) :
    Reachable (m.addAttributes calls) := by
  induction calls generalizing m with
  | nil => exact reached
  | cons call calls ih => exact ih (.called reached call)

/-! ## The names -/

/-- The constants of namespace `WscAttributes`. -/
inductive Name where
  | version
  | state
  | authentication
  | ssid
  deriving DecidableEq, Repr

def Name.type : Name → UInt16
  | version => WscAttributes.wscVersion
  | state => WscAttributes.wscState
  | authentication => WscAttributes.wscAuthentication
  | ssid => WscAttributes.wscSsid

/-- A new message after `AddAttribute` calls that use the names. -/
def named (calls : List (Name × List UInt8)) : WscMessage :=
  WscMessage.empty.addAttributes (calls.map fun call => (call.1.type, call.2))

/-- Every name reads the value that was added under it last, or nothing. -/
def ReadsOwn (calls : List (Name × List UInt8)) (m : WscMessage) : Prop :=
  ∀ name : Name, m.getAttributeValue name.type = (lastWrite name calls).getD []

/-- The names are independent fields, on the message and on the one that a peer rebuilds. -/
def FieldsIndependent (calls : List (Name × List UInt8)) : Prop :=
  ReadsOwn calls (named calls) ∧
  ∀ tlv m, toTlv.run (named calls) = .ok tlv m →
    ∃ rebuilt, ofRaw tlv.getValue = .ok rebuilt ∧ ReadsOwn calls rebuilt

/-- Only two names share a type. -/
theorem Name.eq_or_shared {name name' : Name} (same : name'.type = name.type) :
    name' = name ∨ (name = .version ∧ name' = .state) ∨ (name = .state ∧ name' = .version) := by
  revert same
  cases name <;> cases name' <;> decide

/-- A name reads what was added last under a name of its type. -/
theorem getAttributeValue_named {calls : List (Name × List UInt8)} (fits : ∀ call ∈ calls, call.2.length ≤ 65535)
    (name : Name) :
    ∃ name', name'.type = name.type ∧
      (named calls).getAttributeValue name.type = (lastWrite name' calls).getD [] := by
  obtain ⟨name', same, last⟩ := lastWrite_rename Name.type name calls
  refine ⟨name', same, ?_⟩
  have all : acceptedCalls (calls.map fun call => (call.1.type, call.2)) =
      calls.map fun call => (call.1.type, call.2) := by
    apply List.filter_eq_self.mpr
    intro call member
    obtain ⟨own, given, rfl⟩ := List.mem_map.mp member
    exact decide_eq_true (fits own given)
  rw [named, empty_addAttributes, all, getAttributeValue_lastValues, last]

theorem readsOwn_iff {calls : List (Name × List UInt8)} (fits : ∀ call ∈ calls, call.2.length ≤ 65535) :
    ReadsOwn calls (named calls) ↔ (lastWrite .version calls).getD [] = (lastWrite .state calls).getD [] := by
  constructor
  · intro own
    -- both names read the one entry of their type
    have version := own .version
    have state := own .state
    exact version.symm.trans state
  · intro agree name
    obtain ⟨name', same, read⟩ := getAttributeValue_named fits name
    rw [read]
    rcases Name.eq_or_shared same with rfl | ⟨rfl, rfl⟩ | ⟨rfl, rfl⟩
    · rfl
    · exact agree.symm
    · exact agree

/-- **When the names are independent**: exactly when the last value under `WSC_VERSION` and
the last one under `WSC_STATE` are the same, an unset name counting as empty. -/
theorem fieldsIndependent_iff {calls : List (Name × List UInt8)} (fits : ∀ call ∈ calls, call.2.length ≤ 65535) :
    FieldsIndependent calls ↔
      (lastWrite .version calls).getD [] = (lastWrite .state calls).getD [] := by
  rw [← readsOwn_iff fits]
  constructor
  · exact And.left
  · intro own
    refine ⟨own, ?_⟩
    intro tlv m run
    obtain ⟨size, rfl, rfl⟩ := toTlv_ok_iff.mp run
    have reached : Reachable (named calls) := reachable_addAttributes .empty _
    exact ⟨_, ofRaw_packedBytes reached.fits, own⟩

/-- The same value under both names, and a value under a name of its own. -/
theorem fieldsIndependent_same : FieldsIndependent [(.version, [0x10]), (.ssid, [0x68]), (.state, [0x10])] :=
  (fieldsIndependent_iff (by decide)).mpr rfl

/-- Setting the state overwrites the version. -/
theorem state_overwrites_version : ¬ FieldsIndependent [(.version, [0x10]), (.state, [0x01])] := by
  rintro ⟨own, -⟩
  have version := own .version
  have overwritten : (named [(.version, [0x10]), (.state, [0x01])]).getAttributeValue Name.version.type = [0x01] := rfl
  rw [overwritten] at version
  cases version

end Ieee1905.Wsc

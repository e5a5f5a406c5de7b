import Ieee1905.Agent.Traces
import Ieee1905.Wire.Built
import Ieee1905.Wire.Diagnosis

/-!
# What fits the receive buffer

The main loop hands over the message that a frame starts with exactly where all of that message
is inside the receive buffer (`cmdu?_eq_fitting?`); what the frame carries behind it, and how
long it is, does not matter. For a message built by `AddTlv` the size is known to the sender,
so the sender can tell whether it will be handled (`built_arrives`).
-/

namespace Ieee1905.Agent

open Codec Wire Ieee1905Agent MessageParser MessageSerializer

/-- The message at the start of a frame, where all of it fits the receive buffer. -/
def Outcome.fitting? : Outcome → Option Cmdu
  | failed => none
  | frame bytes => (parse bytes).toOption.filter fun cmdu => wireSize cmdu ≤ 2048

theorem toOption_eq_some_iff {α : Type} {r : Except Fault α} {a : α} : r.toOption = some a ↔ r = .ok a := by
  cases r <;> simp [Except.toOption]

/-- The cut to the buffer keeps messages that fit it. -/
theorem begins_take {b p : List UInt8} {m : Message} (word : messageCode.Begins b m p) {n : ℕ} (fits : wireSize m.cmdu ≤ n) :
    messageCode.Begins (b.take n) m (p.take (n - wireSize m.cmdu)) := by
  rw [← length_messageCode] at fits ⊢
  unfold PrefixCode.Begins at *
  rw [word, List.take_append, List.take_of_length_le fits]

/-- The cut adds no message. -/
theorem parse_of_take {b : List UInt8} {n : ℕ} {c : Cmdu} (accepted : parse (b.take n) = .ok c) :
    parse b = .ok c ∧ wireSize c ≤ n := by
  obtain ⟨m, p, word, rfl⟩ := parse_ok_iff.mp accepted
  have whole := word.append (b.drop n)
  rw [List.take_append_drop] at whole
  refine ⟨parse_message whole, ?_⟩
  have fits := wireSize_le word
  rw [List.length_take] at fits
  omega

theorem fitting?_frame_eq_some_iff {bytes : List UInt8} {c : Cmdu} :
    (Outcome.frame bytes).fitting? = some c ↔ parse bytes = .ok c ∧ wireSize c ≤ 2048 := by
  rw [Outcome.fitting?, Option.filter_eq_some_iff, toOption_eq_some_iff, decide_eq_true_iff]

/-- **What a frame hands over** is the message it starts with, if that fits. -/
theorem cmdu?_eq_fitting? (outcome : Outcome) : outcome.cmdu? = outcome.fitting? := by
  cases outcome with
  | failed => rfl
  | frame bytes =>
    apply Option.ext
    intro c
    rw [fitting?_frame_eq_some_iff, Outcome.cmdu?, toOption_eq_some_iff]
    constructor
    · exact parse_of_take
    · rintro ⟨accepted, fits⟩
      obtain ⟨m, p, word, rfl⟩ := parse_ok_iff.mp accepted
      exact parse_message (begins_take word fits)

/-! ## What is reported -/

/-- A report quotes the line of the table that the frame, cut to the buffer, falls under. -/
theorem line?_frame_eq_some_iff {bytes : List UInt8} {line : String} :
    (Outcome.frame bytes).line? = some line ↔ bytes ≠ [] ∧
      ∃ what, ParsesTo (bytes.take 2048) (.error (.runtimeError what)) ∧ line = "Error parsing CMDU: " ++ what := by
  have table (r : Except Fault Cmdu) : ParsesTo (bytes.take 2048) r ↔ parse (bytes.take rxBufferSize) = r := by
    constructor
    · exact ParsesTo.parse_eq
    · rintro rfl
      exact parsesTo_parse _
  by_cases empty : bytes = []
  · simp [Outcome.line?, empty]
  · simp only [Outcome.line?, table, ne_eq, empty, not_false_eq_true, true_and, if_false]
    rcases parse_ok_or_throws (bytes.take rxBufferSize) with ⟨c, parsed⟩ | ⟨what, throws⟩
    · rw [parsed]
      simp
    · rw [throws]
      simp [Fault.what?, eq_comm]

/-- A frame is handed over or reported, never both; an empty one is neither. -/
theorem frame_cases {bytes : List UInt8} (nonempty : bytes ≠ []) :
    (∃ c, (Outcome.frame bytes).cmdu? = some c ∧ (Outcome.frame bytes).line? = none) ∨
      ∃ line, (Outcome.frame bytes).cmdu? = none ∧ (Outcome.frame bytes).line? = some line := by
  simp only [Outcome.cmdu?, Outcome.line?, if_neg nonempty]
  cases parse (bytes.take rxBufferSize) with
  | ok c => exact .inl ⟨c, rfl, rfl⟩
  | error e => exact .inr ⟨_, rfl, rfl⟩

theorem frame_nil : (Outcome.frame []).cmdu? = none ∧ (Outcome.frame []).line? = none := ⟨rfl, rfl⟩

theorem line?_eq_none {bytes : List UInt8} {c : Cmdu} (seen : (Outcome.frame bytes).cmdu? = some c) :
    (Outcome.frame bytes).line? = none := by
  by_cases empty : bytes = []
  · rw [empty]
    exact frame_nil.2
  · rcases frame_cases empty with ⟨-, -, quiet⟩ | ⟨-, none, -⟩
    · exact quiet
    · rw [seen] at none
      cases none

theorem exists_line? {bytes : List UInt8} (nonempty : bytes ≠ []) (seen : (Outcome.frame bytes).cmdu? = none) :
    ∃ line, (Outcome.frame bytes).line? = some line := by
  rcases frame_cases nonempty with ⟨c, handed, -⟩ | ⟨line, none, told⟩
  · rw [seen] at handed
    cases handed
  · exact ⟨line, told⟩

theorem cerr_foldl (agent : Ieee1905Agent) (outcomes : List Outcome) :
    (outcomes.foldl after agent).cerr = agent.cerr ++ outcomes.filterMap Outcome.line? := by
  induction outcomes generalizing agent with
  | nil => exact (List.append_nil _).symm
  | cons outcome outcomes ih =>
    rw [List.foldl_cons, ih]
    simp only [after, List.append_assoc]
    cases found : outcome.line? with
    | none => rw [List.filterMap_cons_none found, Option.toList_none, List.nil_append]
    | some line => rw [List.filterMap_cons_some found, Option.toList_some, List.singleton_append]

theorem handedOver_fitting (agent : Ieee1905Agent) (outcomes : List Outcome) :
    handedOver (outcomes.foldl after agent) = handedOver agent ++ outcomes.filterMap Outcome.fitting? := by
  rw [handedOver_foldl, ← funext cmdu?_eq_fitting?]

/-- **The main loop accounts for every frame**: over every run it hands over, in order, the
messages that the frames start with and that fit the buffer, and reports, in order, every other
frame with the text of its case; a frame of any length but zero leaves one of the two. -/
theorem startRounds_account {receptions : List ReceivePacket} {outcomes : List Outcome}
    (meets : List.Forall₂ Meets receptions outcomes) {rxBuffer : List UInt8} (size : rxBuffer.length = 2048)
    (agent : Ieee1905Agent) :
    (∃ rxBuffer' agent', (startRounds receptions rxBuffer).run agent = .ok rxBuffer' agent' ∧
      handedOver agent' = handedOver agent ++ outcomes.filterMap Outcome.fitting? ∧
      agent'.cerr = agent.cerr ++ outcomes.filterMap Outcome.line?) ∧
    ∀ bytes, bytes ≠ [] → (∃ c, (Outcome.frame bytes).fitting? = some c ∧ (Outcome.frame bytes).line? = none) ∨
      ∃ what, ParsesTo (bytes.take 2048) (.error (.runtimeError what)) ∧ (Outcome.frame bytes).fitting? = none ∧
        (Outcome.frame bytes).line? = some ("Error parsing CMDU: " ++ what) := by
  constructor
  · obtain ⟨rxBuffer', run⟩ := startRounds_run meets size agent
    exact ⟨rxBuffer', _, run, handedOver_fitting agent outcomes, cerr_foldl agent outcomes⟩
  · intro bytes nonempty
    rw [← cmdu?_eq_fitting?]
    rcases frame_cases nonempty with handed | ⟨line, none, reported⟩
    · exact .inl handed
    · obtain ⟨-, what, case, rfl⟩ := line?_frame_eq_some_iff.mp reported
      exact .inr ⟨what, case, none, reported⟩

/-- The same of `Start`. -/
theorem start_account {receptions : List ReceivePacket} {outcomes : List Outcome}
    (meets : List.Forall₂ Meets receptions outcomes) (agent : Ieee1905Agent) :
    ∃ rxBuffer agent', (start receptions).run agent = .ok rxBuffer agent' ∧
      handedOver agent' = handedOver agent ++ outcomes.filterMap Outcome.fitting? ∧
      agent'.cerr = agent.cerr ++ outcomes.filterMap Outcome.line? := by
  obtain ⟨rxBuffer, run⟩ := start_run meets agent
  exact ⟨rxBuffer, _, run, handedOver_fitting _ outcomes, cerr_foldl _ outcomes⟩

/-- A discovery message in a frame that is longer than the buffer, and a frame of two bytes. -/
theorem startRounds_account_long :
    ∃ rxBuffer agent, (startRounds
        [receiveFrame ([0, 0, 0, 0, 0, 1, 0, 0x80, 0, 0, 0] ++ List.replicate 3000 7), receiveFrame [1, 2]]
        (List.replicate 2048 0)).run (.new "eth0") = .ok rxBuffer agent ∧
      handedOver agent = [(Cmdu.new CmduTypes.topologyDiscovery 1).addTlv emptyEnd] ∧
      agent.cerr = ["Error parsing CMDU: Buffer size is smaller than the minimum CMDU header size."] := by
  generalize List.replicate 3000 (7 : UInt8) = padding
  have meets : List.Forall₂ Meets _ [.frame ([0, 0, 0, 0, 0, 1, 0, 0x80, 0, 0, 0] ++ padding), .frame [1, 2]] :=
    .cons (meets_receiveFrame (List.cons_ne_nil _ _)) (.cons (meets_receiveFrame (List.cons_ne_nil _ _)) .nil)
  obtain ⟨⟨rxBuffer, agent, run, handed, reported⟩, -⟩ := startRounds_account meets List.length_replicate (.new "eth0")
  have first : (Outcome.frame ([0, 0, 0, 0, 0, 1, 0, 0x80, 0, 0, 0] ++ padding)).fitting? =
      some ((Cmdu.new CmduTypes.topologyDiscovery 1).addTlv emptyEnd) := by
    have bare : parse [0, 0, 0, 0, 0, 1, 0, 0x80, 0, 0, 0] = .ok ((Cmdu.new CmduTypes.topologyDiscovery 1).addTlv emptyEnd) := by
      decide +kernel
    obtain ⟨m, p, word, same⟩ := parse_ok_iff.mp bare
    rw [fitting?_frame_eq_some_iff, same]
    refine ⟨parse_message (word.append padding), ?_⟩
    rw [← same]
    decide
  have quiet := line?_eq_none ((cmdu?_eq_fitting? _).trans first)
  have second : (Outcome.frame [1, 2]).fitting? = none := rfl
  have report : (Outcome.frame [1, 2]).line? =
      some "Error parsing CMDU: Buffer size is smaller than the minimum CMDU header size." := rfl
  refine ⟨rxBuffer, agent, run, ?_, ?_⟩
  · rw [handed, List.filterMap_cons_some first, List.filterMap_cons_none second]
    rfl
  · rw [reported, List.filterMap_cons_none quiet, List.filterMap_cons_some report]
    rfl

/-! ## What a sender can tell -/

/-- What every round does that meets a frame with the packet in front, from any agent and any
receive buffer. -/
def EveryRound (packet : List UInt8) (P : Ieee1905Agent → Ieee1905Agent → Prop) : Prop :=
  ∀ padding receivePacket rxBuffer agent, Meets receivePacket (.frame (packet ++ padding)) → rxBuffer.length = 2048 →
    ∃ rxBuffer' agent', (startRound receivePacket rxBuffer).run agent = .ok rxBuffer' agent' ∧ P agent agent'

theorem everyRound {packet : List UInt8} {P : Ieee1905Agent → Ieee1905Agent → Prop}
    (holds : ∀ padding agent, P agent (after agent (.frame (packet ++ padding)))) : EveryRound packet P := by
  intro padding receivePacket rxBuffer agent meets size
  obtain ⟨rxBuffer', -, run⟩ := startRound_run meets size agent
  exact ⟨rxBuffer', _, run, holds padding agent⟩

section Built

variable (type : MessageType) (id : MessageId) (flags : MessageFlags) (fragmentId : FragmentId)

/-- What the peer's loop sees of a packet with one terminator at most. -/
theorem cmdu?_built {ts : List Tlv} (few : ts.countP Tlv.isEnd ≤ 1) (padding : List UInt8) :
    (Outcome.frame (packBytes ((Cmdu.new type id flags fragmentId).addTlvs ts) ++ padding)).cmdu? =
      if builtSize ts ≤ 2048 then
        some { Cmdu.new type id flags fragmentId with tlvs := payload Tlv.isEnd ts ++ [(ts.find? Tlv.isEnd).getD emptyEnd] }
      else none := by
  have parsed := parse_built type id flags fragmentId few padding
  have size : wireSize { Cmdu.new type id flags fragmentId with
      tlvs := payload Tlv.isEnd ts ++ [(ts.find? Tlv.isEnd).getD emptyEnd] } = builtSize ts :=
    wireSize_built type id flags fragmentId few
  rw [cmdu?_eq_fitting?, Outcome.fitting?, parsed]
  show Option.filter _ (some _) = _
  rw [Option.filter_some, size]
  simp only [decide_eq_true_eq]

/-- **The sender can tell.** A message of any TLVs with one terminator at most, however they were
added, arrives in every round that meets its packet, whatever follows the packet in the frame and
whatever was in the buffer: the round hands it over if its size fits, and else hands over nothing
and reports it. -/
theorem built_arrives {ts : List Tlv} (few : ts.countP Tlv.isEnd ≤ 1) :
    ∃ packet, pack ((Cmdu.new type id flags fragmentId).addTlvs ts) = .ok packet ∧ packet.length = builtSize ts ∧
      EveryRound packet fun agent agent' =>
        (builtSize ts ≤ 2048 → agent'.cerr = agent.cerr ∧ handedOver agent' = handedOver agent ++
          [{ Cmdu.new type id flags fragmentId with
            tlvs := payload Tlv.isEnd ts ++ [(ts.find? Tlv.isEnd).getD emptyEnd] }]) ∧
        (2048 < builtSize ts → handedOver agent' = handedOver agent ∧ ∃ line, agent'.cerr = agent.cerr ++ [line]) := by
  refine ⟨_, pack_eq _, length_packBytes_built type id flags fragmentId ts, everyRound ?_⟩
  intro padding agent
  have seen := cmdu?_built type id flags fragmentId few padding
  rw [handedOver_after, seen]
  constructor
  · intro fits
    rw [if_pos fits] at seen ⊢
    refine ⟨?_, rfl⟩
    simp only [after, line?_eq_none seen]
    exact List.append_nil _
  · intro long
    have cut : ¬ builtSize ts ≤ 2048 := by omega
    rw [if_neg cut] at seen ⊢
    have nonempty : packBytes ((Cmdu.new type id flags fragmentId).addTlvs ts) ++ padding ≠ [] := List.cons_ne_nil _ _
    obtain ⟨line, told⟩ := exists_line? nonempty seen
    refine ⟨List.append_nil _, line, ?_⟩
    simp only [after, told]
    rfl

end Built

/-- A terminator with a value, a device and then 3000 bytes behind the packet. -/
theorem built_arrives_device :
    ∃ packet, pack ((Cmdu.new CmduTypes.topologyDiscovery 1).addTlvs [⟨0, [7], by decide⟩, deviceTlv]) = .ok packet ∧
      packet.length = 21 ∧
      ∃ rxBuffer agent, (startRound (receiveFrame (packet ++ List.replicate 3000 0)) (List.replicate 2048 0)).run
          (.new "eth0") = .ok rxBuffer agent ∧
        handedOver agent = [{ Cmdu.new CmduTypes.topologyDiscovery 1 with tlvs := [deviceTlv, ⟨0, [7], by decide⟩] }] := by
  obtain ⟨packet, packed, size, arrives⟩ := built_arrives CmduTypes.topologyDiscovery 1 CmduFlags.lastFragment 0
    (show [⟨0, [7], by decide⟩, deviceTlv].countP Tlv.isEnd ≤ 1 by decide)
  have some : packet ++ List.replicate 3000 0 ≠ [] := by
    intro empty
    have nothing := congrArg List.length empty
    rw [List.length_append, List.length_replicate, List.length_nil] at nothing
    omega
  obtain ⟨rxBuffer, agent, run, fits, -⟩ := arrives _ _ _ (.new "eth0") (meets_receiveFrame some) List.length_replicate
  obtain ⟨-, handed⟩ := fits (by decide)
  exact ⟨packet, packed, size, rxBuffer, agent, run, handed⟩

end Ieee1905.Agent

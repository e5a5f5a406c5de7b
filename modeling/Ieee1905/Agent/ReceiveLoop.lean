import Ieee1905.Agent.Writing
import Ieee1905.Wire.Truncation

/-!
# The receive loop

`Outcome` is what the network did in one round, `Meets` what the loop relies on from
`ReceivePacket`. A round changes the agent by the outcome alone (`startRound_run`), not by
what the receive buffer held before, so a run handles the CMDUs of the frames in order and
nothing else.
-/

namespace Ieee1905.Agent

open Machine Wire Ieee1905Agent MessageParser MessageSerializer

/-- What one call of `ReceivePacket` met. -/
inductive Outcome where
  | failed
  | frame (bytes : List UInt8)

/-- The call returns no length, with anything in the buffer, or it overwrites the front of
the buffer with as much of the frame as fits and returns how much that is. -/
def Meets (receivePacket : ReceivePacket) : Outcome → Prop
  | .failed => ∀ rxBuffer, rxBuffer.length = rxBufferSize →
      (receivePacket rxBuffer).1 ≤ 0 ∧ (receivePacket rxBuffer).2.length = rxBufferSize
  | .frame bytes => bytes ≠ [] ∧ ∀ rxBuffer, rxBuffer.length = rxBufferSize →
      (receivePacket rxBuffer).1 = min bytes.length rxBufferSize ∧
      (receivePacket rxBuffer).2.length = rxBufferSize ∧
      (receivePacket rxBuffer).2.take (min bytes.length rxBufferSize) = bytes.take rxBufferSize

/-- The stub of the source receives nothing. -/
theorem meets_receivePacket : Meets InterfaceManager.receivePacket .failed := by
  intro rxBuffer size
  exact ⟨Int.le_refl 0, size⟩

/-- `recv` into the buffer. -/
def receiveFrame (bytes : List UInt8) : ReceivePacket := fun rxBuffer =>
  (min bytes.length rxBuffer.length, bytes.take rxBuffer.length ++ rxBuffer.drop (min bytes.length rxBuffer.length))

theorem meets_receiveFrame {bytes : List UInt8} (some : bytes ≠ []) : Meets (receiveFrame bytes) (.frame bytes) := by
  refine ⟨some, ?_⟩
  intro rxBuffer size
  have taken : (bytes.take rxBufferSize).length = min bytes.length rxBufferSize := by
    rw [List.length_take, Nat.min_comm]
  refine ⟨?_, ?_, ?_⟩
  · simp only [receiveFrame, size]
    omega
  · simp only [receiveFrame, size, List.length_append, taken, List.length_drop]
    omega
  · simp only [receiveFrame, size]
    rw [← taken, List.take_left]

/-- The CMDU of an outcome: the frame, cut to the buffer, where it parses. -/
def Outcome.cmdu? : Outcome → Option Cmdu
  | failed => none
  | frame bytes => (parse (bytes.take rxBufferSize)).toOption

/-- What a frame that does not parse leaves on `std::cerr`; an empty one is not looked at. -/
def Outcome.line? : Outcome → Option String
  | failed => none
  | frame bytes =>
    if bytes = [] then none
    else
      match parse (bytes.take rxBufferSize) with
      | .ok _ => none
      | .error e => some ("Error parsing CMDU: " ++ e.what?.getD "")

/-- The agent after a round. -/
def after (agent : Ieee1905Agent) (outcome : Outcome) : Ieee1905Agent :=
  { agent with
    handled := agent.handled ++ outcome.cmdu?.toList.map fun cmdu => (cmdu, dispatch cmdu.getType)
    cerr := agent.cerr ++ outcome.line?.toList
    log := agent.log ++ outcome.cmdu?.toList.flatMap fun cmdu => written (handleCmdu cmdu) }

/-- A round that meets nothing leaves the agent as it was. -/
theorem after_eq_self {outcome : Outcome} (nothing : outcome.cmdu? = none) (quiet : outcome.line? = none)
    (agent : Ieee1905Agent) : after agent outcome = agent := by
  simp [after, nothing, quiet]

/-! ## One round -/

/-- The bytes copied out of the buffer are those received, whatever stands behind them. -/
theorem copy_front {rxBuffer received : List UInt8} {len : ℕ} (inside : len ≤ rxBuffer.length)
    (front : rxBuffer.take len = received) :
    copy Fault.outOfBounds rxBuffer len 0 = .ok (received, len) := by
  have size : received.length = len := by
    rw [← front, List.length_take]
    omega
  have ahead : At rxBuffer 0 (received ++ rxBuffer.drop len) := by
    rw [← front, List.take_append_drop]
    exact At.start rxBuffer
  have read := ahead.copy_eq Fault.outOfBounds
  rwa [size, Nat.zero_add] at read

/-- Every parse error is caught, and the agent stays in the loop. -/
theorem tryCatch_handleReceived {rxBuffer bytes : List UInt8} {len : ℕ} (some : bytes ≠ []) (inside : len ≤ rxBuffer.length)
    (front : rxBuffer.take len = bytes.take rxBufferSize) (agent : Ieee1905Agent) :
    (tryCatch (handleReceived rxBuffer len) reportException).run agent = .ok .unit (after agent (.frame bytes)) := by
  have copied := copy_front inside front
  have body : (handleReceived rxBuffer len).run agent =
      (ofExcept (parse (bytes.take rxBufferSize)) >>= handleCmdu).run agent := by
    simp only [handleReceived, copied]
    rfl
  rcases parse_ok_or_throws (bytes.take rxBufferSize) with ⟨cmdu, parsed⟩ | ⟨what, throws⟩
  · have handled : (handleReceived rxBuffer len).run agent = .ok .unit (after agent (.frame bytes)) := by
      rw [body, parsed]
      show (handleCmdu cmdu).run agent = _
      rw [handleCmdu_run]
      simp [after, Outcome.cmdu?, Outcome.line?, parsed, Except.toOption]
    rw [run_tryCatch, handled]
  · have thrown : (handleReceived rxBuffer len).run agent = .error (.runtimeError what) agent := by
      rw [body, throws]
      rfl
    have none : (Outcome.frame bytes).cmdu? = Option.none := by
      rw [Outcome.cmdu?, throws]
      rfl
    have line : (Outcome.frame bytes).line? = Option.some ("Error parsing CMDU: " ++ what) := by
      rw [Outcome.line?, if_neg some, throws]
      rfl
    rw [run_tryCatch, thrown, after, none, line]
    simp only [Option.toList_none, Option.toList_some, List.map_nil, List.flatMap_nil, List.append_nil]
    rfl

/-- **A round depends on the outcome only**: not on what an earlier frame left in the
buffer. -/
theorem startRound_run {receivePacket : ReceivePacket} {outcome : Outcome} (meets : Meets receivePacket outcome)
    {rxBuffer : List UInt8} (size : rxBuffer.length = rxBufferSize) (agent : Ieee1905Agent) :
    ∃ rxBuffer', rxBuffer'.length = rxBufferSize ∧
      (startRound receivePacket rxBuffer).run agent = .ok rxBuffer' (after agent outcome) := by
  cases outcome with
  | failed =>
    obtain ⟨none, kept⟩ := meets rxBuffer size
    refine ⟨_, kept, ?_⟩
    have skip : ¬ (receivePacket rxBuffer).1 > 0 := by omega
    rw [after_eq_self rfl rfl]
    simp only [startRound, if_neg skip]
    rfl
  | frame bytes =>
    obtain ⟨some, received⟩ := meets
    obtain ⟨len, kept, front⟩ := received rxBuffer size
    have pos := List.length_pos_iff.mpr some
    have go : (receivePacket rxBuffer).1 > 0 := by
      simp only [rxBufferSize] at len
      omega
    have inside : (receivePacket rxBuffer).1.toNat ≤ (receivePacket rxBuffer).2.length := by
      rw [len, kept]
      omega
    have copied : (receivePacket rxBuffer).2.take (receivePacket rxBuffer).1.toNat = bytes.take rxBufferSize := by
      rw [len, ← front]
      rfl
    refine ⟨_, kept, ?_⟩
    have round := tryCatch_handleReceived some inside copied agent
    simp only [startRound, if_pos go, EStateM.run_bind, round]
    rfl

/-! ## Runs -/

theorem startRounds_run {receptions : List ReceivePacket} {outcomes : List Outcome}
    (meets : List.Forall₂ Meets receptions outcomes) {rxBuffer : List UInt8}
    (size : rxBuffer.length = rxBufferSize) (agent : Ieee1905Agent) :
    ∃ rxBuffer', (startRounds receptions rxBuffer).run agent = .ok rxBuffer' (outcomes.foldl after agent) := by
  induction meets generalizing rxBuffer agent with
  | nil => exact ⟨rxBuffer, rfl⟩
  | cons one _ ih =>
    obtain ⟨next, kept, round⟩ := startRound_run one size agent
    obtain ⟨last, rounds⟩ := ih kept (after agent _)
    refine ⟨last, ?_⟩
    rw [startRounds, List.foldlM_cons, EStateM.run_bind, round]
    exact rounds

/-- The CMDUs handed to `HandleCmdu`, oldest first. -/
def handedOver (agent : Ieee1905Agent) : List Cmdu := agent.handled.map Prod.fst

theorem handedOver_after (agent : Ieee1905Agent) (outcome : Outcome) :
    handedOver (after agent outcome) = handedOver agent ++ outcome.cmdu?.toList := by
  simp [handedOver, after, Function.comp_def]

theorem handedOver_foldl (agent : Ieee1905Agent) (outcomes : List Outcome) :
    handedOver (outcomes.foldl after agent) = handedOver agent ++ outcomes.filterMap Outcome.cmdu? := by
  induction outcomes generalizing agent with
  | nil => exact (List.append_nil _).symm
  | cons outcome outcomes ih =>
    rw [List.foldl_cons, ih, handedOver_after, List.append_assoc]
    cases found : outcome.cmdu? with
    | none => rw [List.filterMap_cons_none found, Option.toList_none, List.nil_append]
    | some cmdu => rw [List.filterMap_cons_some found, Option.toList_some, List.singleton_append]

/-- A packet that does not fit the buffer is not a shorter message. -/
theorem cmdu?_of_long {c : Cmdu} (lastOnly : TerminatorLastOnly c) (long : rxBufferSize < (packBytes c).length) :
    (Outcome.frame (packBytes c)).cmdu? = none := by
  obtain ⟨what, throws⟩ := packBytes_take_throws lastOnly long
  rw [Outcome.cmdu?, throws]
  rfl

/-- **The receive loop isolates packets.** Whatever the buffer holds and however `ReceivePacket`
fails, every run of the main loop hands over the CMDUs of the frames that parse, cut to the
buffer, in order and each once; a packet longer than the buffer contributes nothing. -/
theorem start_isolates {receptions : List ReceivePacket} {outcomes : List Outcome}
    (meets : List.Forall₂ Meets receptions outcomes) {rxBuffer : List UInt8}
    (size : rxBuffer.length = 2048) (agent : Ieee1905Agent) :
    (∃ rxBuffer' agent', (startRounds receptions rxBuffer).run agent = .ok rxBuffer' agent' ∧
      handedOver agent' = handedOver agent ++ outcomes.filterMap Outcome.cmdu?) ∧
    ∀ c packet, TerminatorLastOnly c → pack c = .ok packet → 2048 < packet.length →
      (Outcome.frame packet).cmdu? = none := by
  constructor
  · obtain ⟨rxBuffer', run⟩ := startRounds_run meets size agent
    exact ⟨rxBuffer', _, run, handedOver_foldl agent outcomes⟩
  · intro c packet lastOnly packed long
    rw [pack_eq] at packed
    obtain rfl := Except.ok.inj packed
    exact cmdu?_of_long lastOnly long

/-- A failed receive and then a discovery message, into a buffer full of other bytes. -/
theorem start_isolates_discovery :
    ∃ rxBuffer agent, (startRounds
        [InterfaceManager.receivePacket, receiveFrame [0, 0, 0, 0, 0, 1, 0, 0x80, 0, 0, 0]]
        (List.replicate 2048 0xFF)).run (.new "eth0") = .ok rxBuffer agent ∧
      handedOver agent = [(Cmdu.new CmduTypes.topologyDiscovery 1).addTlv emptyEnd] := by
  have meets : List.Forall₂ Meets _ [.failed, .frame [0, 0, 0, 0, 0, 1, 0, 0x80, 0, 0, 0]] :=
    .cons meets_receivePacket (.cons (meets_receiveFrame (by decide)) .nil)
  obtain ⟨⟨rxBuffer, agent, run, handed⟩, -⟩ :=
    start_isolates meets List.length_replicate (.new "eth0")
  refine ⟨rxBuffer, agent, run, ?_⟩
  rw [handed]
  decide +kernel

/-! ## `Start` -/

/-- `Start` writes its line and goes round over a buffer of its own. -/
theorem start_run {receptions : List ReceivePacket} {outcomes : List Outcome}
    (meets : List.Forall₂ Meets receptions outcomes) (agent : Ieee1905Agent) :
    ∃ rxBuffer, (start receptions).run agent =
      .ok rxBuffer (outcomes.foldl after { agent with log := agent.log ++ written startLoop }) := by
  rw [start, EStateM.run_bind, startLoop_run]
  exact startRounds_run meets List.length_replicate _

/-- So `Start` isolates packets too. -/
theorem handedOver_start {receptions : List ReceivePacket} {outcomes : List Outcome}
    (meets : List.Forall₂ Meets receptions outcomes) (agent : Ieee1905Agent) :
    ∃ rxBuffer agent', (start receptions).run agent = .ok rxBuffer agent' ∧
      handedOver agent' = handedOver agent ++ outcomes.filterMap Outcome.cmdu? := by
  obtain ⟨rxBuffer, run⟩ := start_run meets agent
  exact ⟨rxBuffer, _, run, handedOver_foldl _ outcomes⟩

end Ieee1905.Agent

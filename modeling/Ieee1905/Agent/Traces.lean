import Ieee1905.Agent.MessageIds
import Ieee1905.Agent.ReceiveLoop
import Ieee1905.Machine.System

/-!
# Calls and receive rounds together

Calls on an agent and rounds of its main loop, each taken as a whole, in any order. `Ledger` is
the abstract agent: how often it sent, what it handed over, what it reported and what it logged.
The code refines it step by step (`perform_run`, `round_run`), so an agent is the accounts of its
trace, and none of them touches another (`node_trace`).
-/

namespace Ieee1905.Agent

open Machine Wire Ieee1905Agent MessageParser MessageSerializer

/-- A call, or a round of the main loop that meets an outcome. -/
inductive Event where
  | call (operation : Operation)
  | round (receivePacket : ReceivePacket) (outcome : Outcome)

/-- An agent and the receive buffer of its main loop. -/
abbrev Node := Ieee1905Agent × List UInt8

/-- The main loop runs over a buffer of its own, calls over the agent alone. -/
def node (interfaceName : String) : System Node Event where
  Init s := s = (.new interfaceName, List.replicate rxBufferSize 0)
  Step s event s' :=
    match event with
    | .call operation => (perform operation).run s.1 = .ok .unit s'.1 ∧ s'.2 = s.2
    | .round receivePacket outcome =>
      Meets receivePacket outcome ∧ (startRound receivePacket s.2).run s.1 = .ok s'.2 s'.1

/-! ## The abstract agent -/

structure Ledger where
  sends : ℕ
  handed : List Cmdu
  lines : List String
  /-- The lines behind those of the constructors. -/
  log : Log

namespace Ledger

/-- The agent of these accounts. -/
def agent (interfaceName : String) (ledger : Ledger) : Ieee1905Agent where
  ifaceManager :=
    ⟨interfaceName, (List.range ledger.sends).map fun k => (packBytes (discovery (UInt16.ofNat (k + 1))), multicastMac)⟩
  nextMessageId := UInt16.ofNat (ledger.sends + 1)
  handled := ledger.handed.map fun cmdu => (cmdu, dispatch cmdu.getType)
  cerr := ledger.lines
  log := (Ieee1905Agent.new interfaceName).log ++ ledger.log

theorem agent_new (interfaceName : String) : agent interfaceName ⟨0, [], [], []⟩ = .new interfaceName := rfl

end Ledger

/-- The CMDU that a call hands to `HandleCmdu`. -/
def handedBy : Operation → List Cmdu
  | .handleCmdu cmdu => [cmdu]
  | _ => []

namespace Event

def sends : Event → ℕ
  | call operation => Agent.sends operation
  | round _ _ => 0

def handed : Event → List Cmdu
  | call operation => handedBy operation
  | round _ outcome => outcome.cmdu?.toList

def lines : Event → List String
  | call _ => []
  | round _ outcome => outcome.line?.toList

def log : Event → Log
  | call operation => written (perform operation)
  | round _ outcome => outcome.cmdu?.toList.flatMap fun cmdu => written (handleCmdu cmdu)

end Event

/-- The accounts of a trace. -/
def ledger (trace : List Event) : Ledger where
  sends := (trace.map Event.sends).sum
  handed := trace.flatMap Event.handed
  lines := trace.flatMap Event.lines
  log := trace.flatMap Event.log

/-- The accounts with those of one more event. -/
def Ledger.book (ledger : Ledger) (event : Event) : Ledger where
  sends := ledger.sends + event.sends
  handed := ledger.handed ++ event.handed
  lines := ledger.lines ++ event.lines
  log := ledger.log ++ event.log

theorem ledger_concat (trace : List Event) (event : Event) : ledger (trace ++ [event]) = (ledger trace).book event := by
  simp [ledger, Ledger.book]

/-! ## One step -/

variable {interfaceName : String}

/-- **One call** returns and is booked. -/
theorem perform_run (ledger : Ledger) (operation : Operation) :
    (perform operation).run (ledger.agent interfaceName) = .ok .unit ((ledger.book (.call operation)).agent interfaceName) := by
  simp only [Ledger.agent, Ledger.book, Event.sends, Event.handed, Event.lines, Event.log, List.append_nil]
  cases operation with
  | sendTopologyDiscovery =>
    have id : UInt16.ofNat (ledger.sends + 1) + 1 = UInt16.ofNat (ledger.sends + 1 + 1) :=
      (UInt16.ofNat_add (ledger.sends + 1) 1).symm
    show sendTopologyDiscovery.run _ = _
    rw [sendTopologyDiscovery_run]
    simp only [id, sends, if_true, List.range_succ, List.map_append, handedBy, List.append_nil, List.append_assoc]
    rfl
  | handleCmdu cmdu =>
    show (handleCmdu cmdu).run _ = _
    rw [handleCmdu_run]
    simp only [handedBy, List.map_append, List.append_assoc]
    rfl
  | _ =>
    simp only [handedBy, List.append_nil, ← List.append_assoc]
    rfl

/-- What a round does to the agent is what it books. -/
theorem after_agent (ledger : Ledger) (receivePacket : ReceivePacket) (outcome : Outcome) :
    after (ledger.agent interfaceName) outcome = (ledger.book (.round receivePacket outcome)).agent interfaceName := by
  simp [after, Ledger.agent, Ledger.book, Event.sends, Event.handed, Event.lines, Event.log]

/-- **One round** returns and is booked, whatever the buffer holds. -/
theorem round_run (ledger : Ledger) {receivePacket : ReceivePacket} {outcome : Outcome}
    (meets : Meets receivePacket outcome) {rxBuffer : List UInt8} (size : rxBuffer.length = rxBufferSize) :
    ∃ rxBuffer', rxBuffer'.length = rxBufferSize ∧
      (startRound receivePacket rxBuffer).run (ledger.agent interfaceName) = .ok rxBuffer'
        ((ledger.book (.round receivePacket outcome)).agent interfaceName) := by
  rw [← after_agent]
  exact startRound_run meets size _

/-! ## Runs -/

/-- The accounts behind a trace are those of the trace, and the receive buffer keeps its size. -/
structure Booked (interfaceName : String) (trace : List Event) (s : Node) : Prop where
  agent : s.1 = (ledger trace).agent interfaceName
  buffer : s.2.length = rxBufferSize

theorem booked_init : Booked interfaceName [] (.new interfaceName, List.replicate rxBufferSize 0) where
  agent := (Ledger.agent_new interfaceName).symm
  buffer := List.length_replicate

/-- Every event can happen, and it is booked. -/
theorem Booked.exists_call {trace : List Event} {s : Node} (booked : Booked interfaceName trace s) (operation : Operation) :
    ∃ s', (node interfaceName).Step s (.call operation) s' := by
  obtain ⟨agent, rxBuffer⟩ := s
  obtain rfl : agent = _ := booked.agent
  exact ⟨(_, rxBuffer), perform_run _ operation, rfl⟩

theorem Booked.exists_round {trace : List Event} {s : Node} (booked : Booked interfaceName trace s)
    {receivePacket : ReceivePacket} {outcome : Outcome} (meets : Meets receivePacket outcome) :
    ∃ s', (node interfaceName).Step s (.round receivePacket outcome) s' := by
  obtain ⟨agent, rxBuffer⟩ := s
  obtain rfl : agent = _ := booked.agent
  obtain ⟨rxBuffer', -, run⟩ := round_run (ledger trace) meets booked.buffer
  exact ⟨(_, rxBuffer'), meets, run⟩

/-- **One step** keeps the books. -/
theorem Booked.step {trace : List Event} {s s' : Node} (booked : Booked interfaceName trace s) {event : Event}
    (taken : (node interfaceName).Step s event s') : Booked interfaceName (trace ++ [event]) s' := by
  obtain ⟨agent, rxBuffer⟩ := s
  obtain ⟨agent', rxBuffer'⟩ := s'
  obtain rfl : agent = _ := booked.agent
  cases event with
  | call operation =>
    obtain ⟨run, kept⟩ := taken
    rw [perform_run] at run
    obtain ⟨-, agents⟩ := EStateM.Result.ok.inj run
    refine ⟨?_, ?_⟩
    · rw [ledger_concat, ← agents]
    · rw [kept]
      exact booked.buffer
  | round receivePacket outcome =>
    obtain ⟨meets, run⟩ := taken
    obtain ⟨next, size, booking⟩ := round_run (ledger trace) meets booked.buffer
    rw [booking] at run
    obtain ⟨buffers, agents⟩ := EStateM.Result.ok.inj run
    refine ⟨?_, ?_⟩
    · rw [ledger_concat, ← agents]
    · rw [← buffers]
      exact size

theorem booked_run {trace : List Event} {s : Node} (run : (node interfaceName).Run trace s) :
    Booked interfaceName trace s := by
  apply run.invariant
  · rintro s rfl
    exact booked_init
  · intro trace s event s' _ booked taken
    exact booked.step taken

/-- **Sending and receiving do not interfere**, in whatever order calls and rounds come: the
packets and the next message id depend on the number of sends only, what was handed over and
reported on the calls of `HandleCmdu` and the outcomes of the rounds only. And no event fails. -/
theorem node_trace {trace : List Event} {s : Node} (run : (node interfaceName).Run trace s) :
    s.1.ifaceManager.sent = (List.range (trace.map Event.sends).sum).map
      (fun k => (packBytes (discovery (UInt16.ofNat (k + 1))), multicastMac)) ∧
    s.1.nextMessageId = UInt16.ofNat ((trace.map Event.sends).sum + 1) ∧
    s.1.handled = (trace.flatMap Event.handed).map (fun cmdu => (cmdu, dispatch cmdu.getType)) ∧
    s.1.cerr = trace.flatMap Event.lines ∧
    (∀ operation, ∃ s', (node interfaceName).Step s (.call operation) s') ∧
    ∀ receivePacket outcome, Meets receivePacket outcome →
      ∃ s', (node interfaceName).Step s (.round receivePacket outcome) s' := by
  have booked := booked_run run
  refine ⟨?_, ?_, ?_, ?_, booked.exists_call, ?_⟩
  · rw [booked.agent]
    rfl
  · rw [booked.agent]
    rfl
  · rw [booked.agent]
    rfl
  · rw [booked.agent]
    rfl
  · intro receivePacket outcome meets
    exact booked.exists_round meets

/-- A send between two rounds, the first of which receives a byte that is no message. -/
theorem node_trace_byte :
    ∃ trace s, (node "eth0").Run trace s ∧ s.1.nextMessageId = 2 ∧ s.1.handled = [] ∧
      s.1.cerr = ["Error parsing CMDU: Buffer size is smaller than the minimum CMDU header size."] := by
  have start : (node "eth0").Run [] (.new "eth0", List.replicate rxBufferSize 0) := .init rfl
  have byte : Meets (receiveFrame [7]) (.frame [7]) := meets_receiveFrame (by decide)
  obtain ⟨s, received⟩ := (booked_run start).exists_round byte
  have run := start.step received
  obtain ⟨s, sent⟩ := (booked_run run).exists_call .sendTopologyDiscovery
  have run := run.step sent
  obtain ⟨s, failed⟩ := (booked_run run).exists_round meets_receivePacket
  have run := run.step failed
  obtain ⟨-, nextId, handled, cerr, -⟩ := node_trace run
  exact ⟨_, s, run, nextId, handled, cerr⟩

end Ieee1905.Agent

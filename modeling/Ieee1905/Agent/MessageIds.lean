import Ieee1905.Agent.Writing
import Ieee1905.Wire.RoundTrip

/-!
# Message ids of sent packets

Only `SendTopologyDiscovery` touches the counter and the interface, so after any run of calls
the packets sent are the discovery messages numbered from one, modulo the width of the
counter. `Counting` is that invariant; a step keeps it (`counting_perform`), and so does a run.
-/

namespace Ieee1905.Agent

open Codec Wire Ieee1905Agent MessageParser MessageSerializer

/-- `DEVICE_INFORMATION_TYPE` with the six bytes of the address. -/
def deviceTlv : Tlv := ⟨TlvTypes.deviceInformationType, [0x11, 0x22, 0x33, 0x44, 0x55, 0x66], by decide⟩

/-- The CMDU that is sent under `id`. -/
def discovery (id : MessageId) : Cmdu := (Cmdu.new CmduTypes.topologyDiscovery id).addTlv deviceTlv

/-- The multicast address of 1905.1. -/
def multicastMac : List UInt8 := [0x01, 0x80, 0xC2, 0x00, 0x00, 0x13]

/-- After `n` sends: the packets so far, numbered from one, and the next number. -/
structure Counting (n : ℕ) (agent : Ieee1905Agent) : Prop where
  nextId : agent.nextMessageId = UInt16.ofNat (n + 1)
  sent : agent.ifaceManager.sent = (List.range n).map fun k => (packBytes (discovery (UInt16.ofNat (k + 1))), multicastMac)

theorem counting_new (interfaceName : String) : Counting 0 (.new interfaceName) := ⟨rfl, rfl⟩

/-! ## One call -/

/-- Every discovery packet has 20 bytes. -/
theorem length_discovery (id : MessageId) : (packBytes (discovery id)).length = 20 := length_packBytes (discovery id)

/-- The first line is written before the packet is made, the second one by `SendPacket`. -/
theorem sendTopologyDiscovery_lines (agent : Ieee1905Agent) :
    sendTopologyDiscovery.run agent = .ok .unit
      { agent with
        nextMessageId := agent.nextMessageId + 1
        ifaceManager := { agent.ifaceManager with
          sent := agent.ifaceManager.sent ++ [(packBytes (discovery agent.nextMessageId), multicastMac)] }
        log := agent.log ++ [(.debug, "Ieee1905Agent: Sending Topology Discovery...")] ++
          [(.debug, "InterfaceManager: Sending packet of size 20")] } := by
  have device : Tlv.new TlvTypes.deviceInformationType [0x11, 0x22, 0x33, 0x44, 0x55, 0x66] = .ok deviceTlv :=
    Tlv.new_ok (by decide)
  have size : "InterfaceManager: Sending packet of size " ++ toString (packBytes (discovery agent.nextMessageId)).length =
      "InterfaceManager: Sending packet of size 20" := by
    rw [length_discovery]
    decide +kernel
  rw [← size]
  simp only [sendTopologyDiscovery, device, pack_eq]
  rfl

theorem sendTopologyDiscovery_run (agent : Ieee1905Agent) :
    sendTopologyDiscovery.run agent = .ok .unit
      { agent with
        nextMessageId := agent.nextMessageId + 1
        ifaceManager := { agent.ifaceManager with
          sent := agent.ifaceManager.sent ++ [(packBytes (discovery agent.nextMessageId), multicastMac)] }
        log := agent.log ++ written sendTopologyDiscovery } := by
  have run := sendTopologyDiscovery_lines agent
  rw [List.append_assoc] at run
  rw [written_of_run (sendTopologyDiscovery_lines blank)]
  exact run

theorem counting_sendTopologyDiscovery {n : ℕ} {agent : Ieee1905Agent} (count : Counting n agent) :
    ∃ agent', sendTopologyDiscovery.run agent = .ok .unit agent' ∧ Counting (n + 1) agent' := by
  refine ⟨_, sendTopologyDiscovery_run agent, ?_, ?_⟩
  · rw [count.nextId]
    exact (UInt16.ofNat_add (n + 1) 1).symm
  · rw [count.sent, count.nextId, List.range_succ, List.map_append]
    rfl

/-- One for a call of `SendTopologyDiscovery`, nothing for any other call. -/
def sends (operation : Operation) : ℕ := if operation = .sendTopologyDiscovery then 1 else 0

/-- **One call** returns and moves the counter as far as it sends. -/
theorem counting_perform {n : ℕ} {agent : Ieee1905Agent} (count : Counting n agent) (operation : Operation) :
    ∃ agent', (perform operation).run agent = .ok .unit agent' ∧ Counting (n + sends operation) agent' := by
  cases operation with
  | sendTopologyDiscovery => exact counting_sendTopologyDiscovery count
  | handleCmdu cmdu => exact ⟨_, handleCmdu_run agent cmdu, count.nextId, count.sent⟩
  | _ => exact ⟨_, rfl, count.nextId, count.sent⟩

/-! ## Runs -/

theorem counting_performAll {n : ℕ} {agent : Ieee1905Agent} (count : Counting n agent) (operations : List Operation) :
    ∃ agent', (performAll operations).run agent = .ok .unit agent' ∧
      Counting (n + operations.count .sendTopologyDiscovery) agent' := by
  induction operations generalizing n agent with
  | nil => exact ⟨agent, rfl, count⟩
  | cons operation operations ih =>
    obtain ⟨next, run, after⟩ := counting_perform count operation
    obtain ⟨last, runs, counted⟩ := ih after
    have total : n + sends operation + operations.count .sendTopologyDiscovery =
        n + (operation :: operations).count .sendTopologyDiscovery := by
      unfold sends
      rw [List.count_cons]
      by_cases sending : operation = .sendTopologyDiscovery
      · simp only [sending, if_true, beq_self_eq_true]
        omega
      · simp only [if_neg sending, beq_iff_eq]
        omega
    refine ⟨last, ?_, total ▸ counted⟩
    have first : performAll (operation :: operations) = perform operation >>= fun _ => performAll operations := rfl
    rw [first, EStateM.run_bind, run]
    exact runs

/-! ## What the peer reads -/

/-- A discovery packet parses back to what was sent, closed with an empty terminator. -/
theorem parse_discovery (id : MessageId) :
    parse (packBytes (discovery id)) = .ok { discovery id with tlvs := [deviceTlv, emptyEnd] } := by
  rw [parse_packBytes]
  rfl

/-- Numbers less than the width of the counter apart are different ids. -/
theorem ofNat_ne_of_window {i j : ℕ} (later : i < j) (window : j < i + 65536) : UInt16.ofNat i ≠ UInt16.ofNat j := by
  intro same
  have residue : i % 65536 = j % 65536 := by
    have wide := congrArg UInt16.toNat same
    rwa [UInt16.toNat_ofNat', UInt16.toNat_ofNat'] at wide
  omega

theorem getElem?_sent {n : ℕ} {agent : Ieee1905Agent} (count : Counting n agent) {k : ℕ} {packet destMac : List UInt8}
    (found : agent.ifaceManager.sent[k]? = some (packet, destMac)) :
    packet = packBytes (discovery (UInt16.ofNat (k + 1))) := by
  rw [count.sent, List.getElem?_map] at found
  obtain ⟨k', inside, same⟩ := Option.map_eq_some_iff.mp found
  obtain ⟨bound, value⟩ := List.getElem?_eq_some_iff.mp inside
  rw [List.getElem_range] at value
  rw [value]
  exact (Prod.mk.inj same).1.symm

/-- **The ids of sent packets.** In every run of calls on a new agent each call of
`SendTopologyDiscovery` sends one packet; the `k`-th, counted from zero, parses to a discovery
message with id `k + 1` modulo 65536, and any two of 65536 consecutive packets have
different ids. -/
theorem sent_messageIds (interfaceName : String) (operations : List Operation) :
    ∃ agent, (performAll operations).run (.new interfaceName) = .ok .unit agent ∧
      agent.ifaceManager.sent.length = operations.count .sendTopologyDiscovery ∧
      (∀ k packet destMac, agent.ifaceManager.sent[k]? = some (packet, destMac) → ∃ cmdu, parse packet = .ok cmdu ∧
        cmdu.getType = CmduTypes.topologyDiscovery ∧ cmdu.getId.toNat = (k + 1) % 65536 ∧ cmdu.getFragmentId = 0 ∧
        cmdu.getFlags = CmduFlags.lastFragment ∧ cmdu.getTlvs = [deviceTlv, emptyEnd]) ∧
      ∀ i j sentI sentJ cmduI cmduJ, i < j → j < i + 65536 →
        agent.ifaceManager.sent[i]? = some sentI → agent.ifaceManager.sent[j]? = some sentJ →
        parse sentI.1 = .ok cmduI → parse sentJ.1 = .ok cmduJ → cmduI.getId ≠ cmduJ.getId := by
  obtain ⟨agent, run, count⟩ := counting_performAll (counting_new interfaceName) operations
  have idOf {k : ℕ} {sent : List UInt8 × List UInt8} (found : agent.ifaceManager.sent[k]? = some sent) :
      parse sent.1 = .ok { discovery (UInt16.ofNat (k + 1)) with tlvs := [deviceTlv, emptyEnd] } := by
    rw [getElem?_sent count found]
    exact parse_discovery _
  refine ⟨agent, run, ?_, ?_, ?_⟩
  · rw [count.sent, List.length_map, List.length_range, Nat.zero_add]
  · intro k packet destMac found
    exact ⟨_, idOf found, rfl, UInt16.toNat_ofNat', rfl, rfl, rfl⟩
  · intro i j sentI sentJ cmduI cmduJ later window foundI foundJ parsedI parsedJ
    rw [idOf foundI] at parsedI
    rw [idOf foundJ] at parsedJ
    obtain rfl := Except.ok.inj parsedI
    obtain rfl := Except.ok.inj parsedJ
    exact ofNat_ne_of_window (by omega) (by omega)

end Ieee1905.Agent

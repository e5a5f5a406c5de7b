import Ieee1905.Agent.Capacity

/-!
# Agents on one medium

Any number of agents, each called and each going round its main loop, in any order. The medium
may lose frames, repeat and delay them, pad them, and make frames of its own (`Noise`); any other
frame that it delivers starts with a packet that some agent has sent. Whatever it does, what an
agent handles stems from a call, from a packet sent before or from noise, and a frame of a peer
is never a parse error (`network_authentic`).
-/

namespace Ieee1905.Agent

open Codec Wire Machine System Ieee1905Agent MessageParser MessageSerializer

universe u

variable {ι : Type u} {names : ι → String} {Noise : List UInt8 → Prop}

/-- What the medium can do in the state `s`. -/
def Carried (Noise : List UInt8 → Prop) (s : ι → Node) : ι → Event → Prop
  | _, .call _ => True
  | _, .round _ .failed => True
  | _, .round _ (.frame bytes) => Noise bytes ∨
      ∃ j packet destMac padding, (packet, destMac) ∈ (s j).1.ifaceManager.sent ∧ bytes = packet ++ padding

def network (names : ι → String) (Noise : List UInt8 → Prop) : System (ι → Node) (ι × Event) :=
  interleave (fun i => node (names i)) (Carried Noise)

/-! ## A packet of a peer -/

/-- What `parse` makes of the packet sent under `id`. -/
def received (id : MessageId) : Cmdu := { discovery id with tlvs := [deviceTlv, emptyEnd] }

theorem frame_discovery (id : MessageId) (padding : List UInt8) :
    (Outcome.frame (packBytes (discovery id) ++ padding)).cmdu? = some (received id) ∧
      (Outcome.frame (packBytes (discovery id) ++ padding)).line? = none := by
  have one : [deviceTlv].countP Tlv.isEnd ≤ 1 := by decide
  have seen := cmdu?_built CmduTypes.topologyDiscovery id CmduFlags.lastFragment 0 one padding
  rw [if_pos (by decide)] at seen
  exact ⟨seen, line?_eq_none seen⟩

/-! ## Where frames come from -/

variable [DecidableEq ι]

/-- How often agent `j` has sent. -/
def sendsOf (j : ι) (trace : List (ι × Event)) : ℕ := ((own j trace).map Event.sends).sum

theorem sendsOf_mono (j : ι) (trace : List (ι × Event)) (label : ι × Event) :
    sendsOf j trace ≤ sendsOf j (trace ++ [label]) := by
  rw [sendsOf, sendsOf, own_append, List.map_append, List.sum_append]
  exact Nat.le_add_right ..

/-- A frame that is noise, or starts with the packet of a send in the trace. -/
def Stems (Noise : List UInt8 → Prop) (trace : List (ι × Event)) (bytes : List UInt8) : Prop :=
  Noise bytes ∨ ∃ j k padding, k < sendsOf j trace ∧ bytes = packBytes (discovery (UInt16.ofNat (k + 1))) ++ padding

theorem Stems.mono {trace : List (ι × Event)} {bytes : List UInt8} (stems : Stems Noise trace bytes) (label : ι × Event) :
    Stems Noise (trace ++ [label]) bytes := by
  rcases stems with noise | ⟨j, k, padding, before, same⟩
  · exact .inl noise
  · exact .inr ⟨j, k, padding, Nat.lt_of_lt_of_le before (sendsOf_mono j trace label), same⟩

/-- The packets that an agent has sent are those of its sends. -/
theorem mem_sent {trace : List (ι × Event)} {s : ι → Node} (run : (network names Noise).Run trace s) {j : ι}
    {packet destMac : List UInt8} (sent : (packet, destMac) ∈ (s j).1.ifaceManager.sent) :
    ∃ k, k < sendsOf j trace ∧ packet = packBytes (discovery (UInt16.ofNat (k + 1))) := by
  rw [(booked_run (run.component j)).agent] at sent
  obtain ⟨k, before, same⟩ := List.mem_map.mp sent
  exact ⟨k, List.mem_range.mp before, (Prod.mk.inj same).1.symm⟩

/-- **Every frame that was delivered** stems from noise or from a send before it. -/
theorem stems_run {trace : List (ι × Event)} {s : ι → Node} (run : (network names Noise).Run trace s) :
    ∀ i receivePacket bytes, (i, .round receivePacket (.frame bytes)) ∈ trace → Stems Noise trace bytes := by
  apply run.invariant
  · intro s _ i receivePacket bytes member
    cases member
  · intro trace s label s' before ih taken i receivePacket bytes member
    rcases List.mem_append.mp member with earlier | now
    · exact (ih i receivePacket bytes earlier).mono label
    · obtain rfl := List.mem_singleton.mp now
      obtain ⟨carried, -, -⟩ := taken
      refine Stems.mono ?_ _
      rcases carried with noise | ⟨j, packet, destMac, padding, sent, rfl⟩
      · exact .inl noise
      · obtain ⟨k, bound, rfl⟩ := mem_sent before sent
        exact .inr ⟨j, k, padding, bound, rfl⟩

/-! ## What arrives -/

/-- A call of `HandleCmdu`, or a frame that is not empty. -/
def Event.arrives : Event → Bool
  | call (.handleCmdu _) => true
  | round _ (.frame bytes) => !bytes.isEmpty
  | _ => false

theorem Event.length_arrives (event : Event) :
    event.handed.length + event.lines.length = if event.arrives then 1 else 0 := by
  cases event with
  | call operation => cases operation <;> rfl
  | round receivePacket outcome =>
    cases outcome with
    | failed => rfl
    | frame bytes =>
      by_cases empty : bytes = []
      · rw [empty]
        rfl
      · rcases frame_cases empty with ⟨c, handed, quiet⟩ | ⟨line, none, reported⟩
        · simp [Event.handed, Event.lines, Event.arrives, handed, quiet, empty]
        · simp [Event.handed, Event.lines, Event.arrives, none, reported, empty]

/-- Every arrival leaves one entry, handled or reported. -/
theorem ledger_arrives (trace : List Event) :
    (ledger trace).handed.length + (ledger trace).lines.length = trace.countP Event.arrives := by
  induction trace with
  | nil => rfl
  | cons event trace ih =>
    have one := event.length_arrives
    simp only [ledger, List.flatMap_cons, List.length_append] at ih ⊢
    rw [List.countP_cons]
    omega

/-- Where a handled CMDU comes from. -/
theorem handed_cases {trace : List (ι × Event)} {s : ι → Node} (run : (network names Noise).Run trace s) {i : ι} {cmdu : Cmdu}
    (handed : cmdu ∈ (ledger (own i trace)).handed) :
    (i, .call (.handleCmdu cmdu)) ∈ trace ∨ (∃ j k, k < sendsOf j trace ∧ cmdu = received (UInt16.ofNat (k + 1))) ∨
      ∃ bytes, Noise bytes ∧ parse (bytes.take 2048) = .ok cmdu := by
  obtain ⟨event, member, made⟩ := List.mem_flatMap.mp handed
  have member := mem_own.mp member
  cases event with
  | call operation =>
    cases operation with
    | handleCmdu cmdu' =>
      obtain rfl := List.mem_singleton.mp made
      exact .inl member
    | _ => cases made
  | round receivePacket outcome =>
    cases outcome with
    | failed => cases made
    | frame bytes =>
      have made := Option.mem_toList.mp made
      rcases stems_run run i receivePacket bytes member with noise | ⟨j, k, padding, before, rfl⟩
      · exact .inr (.inr ⟨bytes, noise, toOption_eq_some_iff.mp made⟩)
      · obtain ⟨seen, -⟩ := frame_discovery (UInt16.ofNat (k + 1)) padding
        have same := seen.symm.trans made
        exact .inr (.inl ⟨j, k, before, (Option.some.inj same).symm⟩)

/-- Only noise is reported. -/
theorem lines_cases {trace : List (ι × Event)} {s : ι → Node} (run : (network names Noise).Run trace s) {i : ι} {line : String}
    (reported : line ∈ (ledger (own i trace)).lines) :
    ∃ bytes what, Noise bytes ∧ parse (bytes.take 2048) = .error (.runtimeError what) ∧ line = "Error parsing CMDU: " ++ what := by
  obtain ⟨event, member, made⟩ := List.mem_flatMap.mp reported
  have member := mem_own.mp member
  cases event with
  | call operation => cases made
  | round receivePacket outcome =>
    cases outcome with
    | failed => cases made
    | frame bytes =>
      have made := Option.mem_toList.mp made
      rcases stems_run run i receivePacket bytes member with noise | ⟨j, k, padding, -, rfl⟩
      · obtain ⟨-, what, case, same⟩ := line?_frame_eq_some_iff.mp made
        exact ⟨bytes, what, noise, case.parse_eq, same⟩
      · obtain ⟨-, quiet⟩ := frame_discovery (UInt16.ofNat (k + 1)) padding
        have both := quiet.symm.trans made
        cases both

theorem exists_calling {trace : List (ι × Event)} {s : ι → Node} (run : (network names Noise).Run trace s) (i : ι)
    (operation : Operation) : ∃ s', (network names Noise).Step s (i, .call operation) s' := by
  obtain ⟨next, step⟩ := (booked_run (run.component i)).exists_call operation
  have free : Carried Noise s i (.call operation) := trivial
  exact ⟨_, turn free step⟩

/-- Whatever was sent can be delivered to any agent, which then handles it. -/
theorem exists_delivery {trace : List (ι × Event)} {s : ι → Node} (run : (network names Noise).Run trace s) {i j : ι}
    {packet destMac : List UInt8} (sent : (packet, destMac) ∈ (s j).1.ifaceManager.sent) (padding : List UInt8) :
    ∃ s' cmdu, (network names Noise).Step s (i, .round (receiveFrame (packet ++ padding)) (.frame (packet ++ padding))) s' ∧
      parse packet = .ok cmdu ∧ (s' i).1.handled = (s i).1.handled ++ [(cmdu, some .processTopologyDiscovery)] := by
  obtain ⟨k, -, rfl⟩ := mem_sent run sent
  have booked := booked_run (run.component i)
  have meets : Meets _ (.frame (packBytes (discovery (UInt16.ofNat (k + 1))) ++ padding)) :=
    meets_receiveFrame (List.cons_ne_nil _ _)
  obtain ⟨next, step⟩ := booked.exists_round meets
  have after := booked.step step
  refine ⟨Function.update s i next, received (UInt16.ofNat (k + 1)), turn ?_ step, parse_discovery _, ?_⟩
  · exact .inr ⟨j, _, destMac, padding, sent, rfl⟩
  · obtain ⟨seen, -⟩ := frame_discovery (UInt16.ofNat (k + 1)) padding
    rw [Function.update_self, after.agent, booked.agent, ledger_concat]
    simp only [Ledger.agent, Ledger.book, Event.handed, seen, List.map_append]
    rfl

theorem range_grows {m n : ℕ} (fewer : m ≤ n) : List.range m <+: List.range n := by
  have front := List.take_prefix m (List.range n)
  rwa [List.take_range, Nat.min_eq_left fewer] at front

/-- **Authenticity.** In every run of any number of agents, whatever the medium loses, repeats,
delays, pads or makes up: every CMDU that an agent handles was given to it in a call, was sent
before by some agent, or was made up; only what was made up is reported as an error; every
arrival is handled or reported, once; every call can be made, and what was sent can still be
delivered to any agent, which handles it; and of two agents one has sent what the other has, and
more, so that no packet tells who sent it. -/
theorem network_authentic {trace : List (ι × Event)} {s : ι → Node} (run : (network names Noise).Run trace s) :
    (∀ i cmdu handler, (cmdu, handler) ∈ (s i).1.handled → handler = dispatch cmdu.getType ∧
      ((i, .call (.handleCmdu cmdu)) ∈ trace ∨ (∃ j k, k < sendsOf j trace ∧ cmdu = received (UInt16.ofNat (k + 1))) ∨
        ∃ bytes, Noise bytes ∧ parse (bytes.take 2048) = .ok cmdu)) ∧
    (∀ i, ∀ line ∈ (s i).1.cerr, ∃ bytes what, Noise bytes ∧ parse (bytes.take 2048) = .error (.runtimeError what) ∧
      line = "Error parsing CMDU: " ++ what) ∧
    (∀ i, (s i).1.handled.length + (s i).1.cerr.length = (own i trace).countP Event.arrives) ∧
    (∀ i operation, ∃ s', (network names Noise).Step s (i, .call operation) s') ∧
    (∀ i j packet destMac padding, (packet, destMac) ∈ (s j).1.ifaceManager.sent →
      ∃ s' cmdu, (network names Noise).Step s (i, .round (receiveFrame (packet ++ padding)) (.frame (packet ++ padding))) s' ∧
        parse packet = .ok cmdu ∧ (s' i).1.handled = (s i).1.handled ++ [(cmdu, some .processTopologyDiscovery)]) ∧
    ∀ i j, (s i).1.ifaceManager.sent <+: (s j).1.ifaceManager.sent ∨
      (s j).1.ifaceManager.sent <+: (s i).1.ifaceManager.sent := by
  refine ⟨?_, ?_, ?_, exists_calling run, ?_, ?_⟩
  · intro i cmdu handler member
    rw [(booked_run (run.component i)).agent] at member
    obtain ⟨cmdu', handed, same⟩ := List.mem_map.mp member
    obtain ⟨rfl, rfl⟩ := Prod.mk.inj same
    exact ⟨rfl, handed_cases run handed⟩
  · intro i line member
    rw [(booked_run (run.component i)).agent] at member
    exact lines_cases run member
  · intro i
    rw [← ledger_arrives, (booked_run (run.component i)).agent]
    simp only [Ledger.agent, List.length_map]
  · intro i j packet destMac padding sent
    exact exists_delivery run sent padding
  · intro i j
    rw [(booked_run (run.component i)).agent, (booked_run (run.component j)).agent]
    rcases Nat.le_total (ledger (own i trace)).sends (ledger (own j trace)).sends with fewer | more
    · exact .inl ((range_grows fewer).map _)
    · exact .inr ((range_grows more).map _)

/-- One agent sends, the other one receives the packet twice. -/
theorem network_authentic_twice :
    ∃ (trace : List (Bool × Event)) (s : Bool → Node), (network (fun _ => "eth0") fun _ => False).Run trace s ∧
      (s true).1.handled = [(received 1, some .processTopologyDiscovery), (received 1, some .processTopologyDiscovery)] ∧
      (s true).1.cerr = [] := by
  have start : (network (fun _ : Bool => "eth0") fun _ => False).Run [] fun _ => (.new "eth0", List.replicate rxBufferSize 0) :=
    .init fun _ => rfl
  obtain ⟨s, sending⟩ := exists_calling start false .sendTopologyDiscovery
  have run := start.step sending
  have sent : (packBytes (discovery 1), multicastMac) ∈ (s false).1.ifaceManager.sent := by
    rw [(booked_run (run.component false)).agent]
    exact List.mem_singleton.mpr rfl
  have none : (s true).1.handled = [] := by
    rw [(booked_run (run.component true)).agent]
    rfl
  obtain ⟨-, -, -, -, deliver, -⟩ := network_authentic run
  obtain ⟨s₁, cmdu, first, parsed, handled⟩ := deliver true false _ _ [] sent
  rw [parse_discovery] at parsed
  obtain rfl := Except.ok.inj parsed
  have again := run.step first
  have kept : s₁ false = s false := first.2.2 false (by decide)
  rw [← kept] at sent
  obtain ⟨-, -, -, -, deliver, -⟩ := network_authentic again
  obtain ⟨s₂, cmdu, second, parsed, twice⟩ := deliver true false _ _ [] sent
  rw [parse_discovery] at parsed
  obtain rfl := Except.ok.inj parsed
  have last := again.step second
  obtain ⟨-, onlyNoise, -⟩ := network_authentic last
  refine ⟨_, s₂, last, ?_, ?_⟩
  · rw [twice, handled, none]
    rfl
  · apply List.eq_nil_iff_forall_not_mem.mpr
    intro line reported
    obtain ⟨-, -, noise, -⟩ := onlyNoise true line reported
    exact noise

end Ieee1905.Agent

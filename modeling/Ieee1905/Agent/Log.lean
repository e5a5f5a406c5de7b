import Ieee1905.Agent.Traces
import Ieee1905.Codec.PrefixCode
import Mathlib.Data.List.Nodup

/-!
# What the log tells

The log of an agent until it is destroyed: its construction, calls, `Start` and rounds of the main
loop. Behind the lines of the constructors, `Start`, every call and every frame that is handed
over adds a block, and the first line of a block determines the block: the log is a sequence of
words of a prefix code (`logCode`). So it tells the interface, when the main loop was started,
which `Send` methods were called and the types and ids of the CMDUs that were handled, in order,
and nothing else (`log_decodes`).
-/

namespace Ieee1905.Agent

open Codec Machine Wire Ieee1905Agent

/-! ## From the constructor on -/

/-- A call, a round of the main loop, or what `Start` does before its loop. -/
inductive Activity where
  | start
  | event (event : Event)

/-- An agent, and the receive buffer once the main loop goes round. -/
abbrev Life := Ieee1905Agent × Option (List UInt8)

/-- The main loop is started once, and never ends. -/
def life (interfaceName : String) : System Life Activity where
  Init s := s = (.new interfaceName, none)
  Step s activity s' :=
    match activity with
    | .start => s.2 = none ∧ ∃ rxBuffer, startLoop.run s.1 = .ok rxBuffer s'.1 ∧ s'.2 = some rxBuffer
    | .event (.call operation) => (perform operation).run s.1 = .ok .unit s'.1 ∧ s'.2 = s.2
    | .event (.round receivePacket outcome) => Meets receivePacket outcome ∧ ∃ rxBuffer rxBuffer', s.2 = some rxBuffer ∧
        (startRound receivePacket rxBuffer).run s.1 = .ok rxBuffer' s'.1 ∧ s'.2 = some rxBuffer'

def Activity.lines : Activity → List Line
  | start => written startLoop
  | event e => e.log

/-- The agent is that of some accounts, and the receive buffer keeps its size. -/
structure Live (interfaceName : String) (s : Life) : Prop where
  agent : ∃ ledger : Ledger, s.1 = ledger.agent interfaceName
  buffer : ∀ rxBuffer ∈ s.2, rxBuffer.length = rxBufferSize

theorem live_init (interfaceName : String) : Live interfaceName (.new interfaceName, none) where
  agent := ⟨_, (Ledger.agent_new interfaceName).symm⟩
  buffer := by
    intro rxBuffer found
    cases found

variable {interfaceName : String}

/-- **One step** writes the lines of its activity, behind those already there. -/
theorem Live.step {s s' : Life} (live : Live interfaceName s) {activity : Activity}
    (taken : (life interfaceName).Step s activity s') : Live interfaceName s' ∧ s'.1.log = s.1.log ++ activity.lines := by
  obtain ⟨agent, rxBuffer?⟩ := s
  obtain ⟨agent', rxBuffer?'⟩ := s'
  obtain ⟨ledger, rfl⟩ : ∃ ledger : Ledger, agent = ledger.agent interfaceName := live.agent
  cases activity with
  | start =>
    obtain ⟨-, rxBuffer, run, rfl⟩ := taken
    rw [startLoop_run] at run
    obtain ⟨rfl, rfl⟩ := EStateM.Result.ok.inj run
    refine ⟨⟨⟨{ ledger with log := ledger.log ++ written startLoop }, ?_⟩, ?_⟩, rfl⟩
    · simp only [Ledger.agent, List.append_assoc]
    · rintro rxBuffer found
      obtain rfl := Option.some.inj found
      exact List.length_replicate
  | event e =>
    cases e with
    | call operation =>
      obtain ⟨run, kept⟩ := taken
      rw [perform_run] at run
      obtain ⟨-, rfl⟩ := EStateM.Result.ok.inj run
      refine ⟨⟨⟨_, rfl⟩, ?_⟩, (List.append_assoc _ _ _).symm⟩
      rw [kept]
      exact live.buffer
    | round receivePacket outcome =>
      obtain ⟨meets, rxBuffer, rxBuffer', found, run, rfl⟩ := taken
      obtain ⟨next, size, booking⟩ := round_run ledger meets (live.buffer rxBuffer found)
      rw [booking] at run
      obtain ⟨rfl, rfl⟩ := EStateM.Result.ok.inj run
      refine ⟨⟨⟨_, rfl⟩, ?_⟩, (List.append_assoc _ _ _).symm⟩
      rintro rxBuffer found
      obtain rfl := Option.some.inj found
      exact size

/-- Every call can be made at any time. -/
theorem Live.exists_call {s : Life} (live : Live interfaceName s) (operation : Operation) :
    ∃ agent, (life interfaceName).Step s (.event (.call operation)) (agent, s.2) := by
  obtain ⟨agent, rxBuffer?⟩ := s
  obtain ⟨ledger, rfl⟩ : ∃ ledger : Ledger, agent = ledger.agent interfaceName := live.agent
  exact ⟨_, perform_run ledger operation, rfl⟩

theorem step_start (agent : Ieee1905Agent) :
    (life interfaceName).Step (agent, none) .start
      ({ agent with log := agent.log ++ written startLoop }, some (List.replicate rxBufferSize 0)) :=
  ⟨rfl, _, startLoop_run agent, rfl⟩

theorem step_round {receivePacket : ReceivePacket} {outcome : Outcome} (meets : Meets receivePacket outcome)
    {rxBuffer : List UInt8} (size : rxBuffer.length = rxBufferSize) (agent : Ieee1905Agent) :
    ∃ rxBuffer' agent', rxBuffer'.length = rxBufferSize ∧ (startRound receivePacket rxBuffer).run agent = .ok rxBuffer' agent' ∧
      (life interfaceName).Step (agent, some rxBuffer) (.event (.round receivePacket outcome)) (agent', some rxBuffer') := by
  obtain ⟨rxBuffer', kept, run⟩ := startRound_run meets size agent
  exact ⟨rxBuffer', _, kept, run, meets, _, _, rfl, run, rfl⟩

/-- The rounds of a run of the main loop. -/
def roundsOf (receptions : List ReceivePacket) (outcomes : List Outcome) : List Activity :=
  List.zipWith (fun receivePacket outcome => .event (.round receivePacket outcome)) receptions outcomes

theorem run_startRounds {receptions : List ReceivePacket} {outcomes : List Outcome}
    (meets : List.Forall₂ Meets receptions outcomes) {trace : List Activity} {rxBuffer : List UInt8}
    (size : rxBuffer.length = rxBufferSize) {agent : Ieee1905Agent}
    (before : (life interfaceName).Run trace (agent, some rxBuffer)) :
    ∃ rxBuffer' agent', (startRounds receptions rxBuffer).run agent = .ok rxBuffer' agent' ∧
      (life interfaceName).Run (trace ++ roundsOf receptions outcomes) (agent', some rxBuffer') := by
  induction meets generalizing trace rxBuffer agent with
  | nil =>
    rw [roundsOf, List.zipWith_nil_left, List.append_nil]
    exact ⟨rxBuffer, agent, rfl, before⟩
  | @cons receivePacket outcome receptions outcomes one _ ih =>
    obtain ⟨next, agent', kept, round, taken⟩ := step_round one size agent
    obtain ⟨rxBuffer', last, rounds, run⟩ := ih kept (before.step taken)
    refine ⟨rxBuffer', last, ?_, ?_⟩
    · rw [startRounds, List.foldlM_cons, EStateM.run_bind, round]
      exact rounds
    · rw [List.append_assoc] at run
      exact run

/-- **`Start` is a life of its own**: its line, and then its rounds. -/
theorem run_start {receptions : List ReceivePacket} {outcomes : List Outcome}
    (meets : List.Forall₂ Meets receptions outcomes) {trace : List Activity} {agent : Ieee1905Agent}
    (before : (life interfaceName).Run trace (agent, none)) :
    ∃ rxBuffer agent', (start receptions).run agent = .ok rxBuffer agent' ∧
      (life interfaceName).Run (trace ++ .start :: roundsOf receptions outcomes) (agent', some rxBuffer) := by
  obtain ⟨rxBuffer, agent', rounds, run⟩ :=
    run_startRounds meets List.length_replicate (before.step (step_start agent))
  refine ⟨rxBuffer, agent', ?_, ?_⟩
  · rw [start, EStateM.run_bind, startLoop_run]
    exact rounds
  · rw [List.append_assoc] at run
    exact run

/-- **The log of a run**: the lines of the constructors, and then those of every activity. -/
theorem life_log {trace : List Activity} {s : Life} (run : (life interfaceName).Run trace s) :
    Live interfaceName s ∧ s.1.log = (Ieee1905Agent.new interfaceName).log ++ trace.flatMap Activity.lines := by
  apply run.invariant
  · rintro s rfl
    exact ⟨live_init interfaceName, (List.append_nil _).symm⟩
  · rintro trace s activity s' - ⟨live, log⟩ taken
    obtain ⟨live', more⟩ := live.step taken
    refine ⟨live', ?_⟩
    rw [more, log, List.flatMap_append, List.flatMap_singleton, List.append_assoc]

/-! ## Lines -/

theorem digitChar_injective : ∀ m < 16, ∀ n < 16, Nat.digitChar m = Nat.digitChar n → m = n := by decide

theorem length_hex04 (v : UInt16) : (hex04 v).toList.length = 4 := by
  rw [hex04, String.toList_ofList]
  rfl

theorem hex04_injective : Function.Injective hex04 := by
  intro v w same
  have digits := congrArg String.toList same
  rw [hex04, hex04, String.toList_ofList, String.toList_ofList] at digits
  simp only [List.cons.injEq, and_true] at digits
  obtain ⟨d3, d2, d1, d0⟩ := digits
  have small := v.toNat_lt
  have small' := w.toNat_lt
  have d3 := digitChar_injective _ (by omega) _ (by omega) d3
  have d2 := digitChar_injective _ (by omega) _ (by omega) d2
  have d1 := digitChar_injective _ (by omega) _ (by omega) d1
  have d0 := digitChar_injective _ (by omega) _ (by omega) d0
  apply UInt16.toNat_inj.mp
  omega

/-- The type and the id stand in the last eighteen characters. -/
theorem cmduText_inj {front front' : String} {type type' : MessageType} {mid mid' : MessageId}
    (same : front ++ cmduText type mid = front' ++ cmduText type' mid') : type = type' ∧ mid = mid' := by
  have chars := congrArg String.toList same
  simp only [cmduText, String.toList_append, ← List.append_assoc] at chars
  obtain ⟨chars, mids⟩ := List.append_inj' chars ((length_hex04 _).trans (length_hex04 _).symm)
  obtain ⟨chars, -⟩ := List.append_inj' chars rfl
  obtain ⟨-, types⟩ := List.append_inj' chars ((length_hex04 _).trans (length_hex04 _).symm)
  exact ⟨hex04_injective (String.toList_inj.mp types), hex04_injective (String.toList_inj.mp mids)⟩

/-- The `Send` methods. -/
def sendCalls : List Operation :=
  [.sendTopologyDiscovery, .sendTopologyNotification, .sendTopologyQuery, .sendTopologyResponse, .sendVendorSpecific,
    .sendLinkMetricQuery, .sendLinkMetricResponse, .sendAutoconfigrationSearch, .sendAutoconfigrationResponse,
    .sendAutoconfigrationWsc, .sendAutoconfigrationRenew, .sendPushButtonEventNotification,
    .sendPushButtonJoinNotification, .sendHigherLayerQuery, .sendHigherLayerResponse, .sendInterfacePowerChangeRequest,
    .sendInterfacePowerChangeResponse, .sendGenericPhyQuery, .sendGenericPhyResponse]

/-- Every call but `HandleCmdu` is one of them. -/
theorem mem_sendCalls (operation : Operation) : (∃ cmdu, operation = .handleCmdu cmdu) ∨ operation ∈ sendCalls := by
  cases operation with
  | handleCmdu cmdu => exact .inl ⟨cmdu, rfl⟩
  | _ => exact .inr (by decide)

/-! ## Blocks -/

/-- What a block of lines stands for. -/
inductive Logged where
  | started
  | sent (operation : {operation : Operation // operation ∈ sendCalls})
  | handled (type : MessageType) (mid : MessageId)

namespace Logged

def block : Logged → List Line
  | started => written startLoop
  | sent operation => written (perform operation.1)
  | handled type mid => written (handleCmdu (Cmdu.new type mid))

/-- The first letters of the verb of a line of the agent: `Starting`, `Sending` or `Received`. -/
def verb (line : Line) : List Char := (line.2.toList.take 17).drop 15

/-- The verb of the first line. -/
def opening : Logged → List Char
  | started => ['S', 't']
  | sent _ => ['S', 'e']
  | handled _ _ => ['R', 'e']

theorem block_handled (type : MessageType) (mid : MessageId) :
    block (handled type mid) = (.debug, receivedText type mid) :: written (branch (Cmdu.new type mid)) :=
  written_handleCmdu (Cmdu.new type mid)

theorem verb_received (type : MessageType) (mid : MessageId) : verb (.debug, receivedText type mid) = ['R', 'e'] := by
  have front : ("Ieee1905Agent: Received CMDU ".toList.take 17).drop 15 = ['R', 'e'] := by decide +kernel
  have long : 17 ≤ "Ieee1905Agent: Received CMDU ".toList.length := by decide +kernel
  rw [← front, ← List.take_append_of_le_length long, ← String.toList_append]
  rfl

/-- Every block has a first line, and its verb tells the kind of the block. -/
theorem exists_block (logged : Logged) : ∃ line rest, block logged = line :: rest ∧ verb line = opening logged := by
  cases logged with
  | started => exact ⟨_, _, rfl, by decide +kernel⟩
  | sent operation =>
    have opens : ∀ operation ∈ sendCalls, (written (perform operation)).head?.map verb = some ['S', 'e'] := by
      decide +kernel
    obtain ⟨line, found, same⟩ := Option.map_eq_some_iff.mp (opens operation.1 operation.2)
    obtain ⟨rest, split⟩ := List.head?_eq_some_iff.mp found
    exact ⟨line, rest, split, same⟩
  | handled type mid => exact ⟨_, _, block_handled type mid, verb_received type mid⟩

theorem block_ne_nil (logged : Logged) : block logged ≠ [] := by
  obtain ⟨line, rest, split, -⟩ := exists_block logged
  rw [split]
  exact List.cons_ne_nil _ _

def head (logged : Logged) : Line := (block logged).head (block_ne_nil logged)

theorem head_eq {logged : Logged} {line : Line} {rest : List Line} (split : block logged = line :: rest) :
    head logged = line := by
  simp only [head, split, List.head_cons]

theorem verb_head (logged : Logged) : verb (head logged) = opening logged := by
  obtain ⟨line, rest, split, same⟩ := exists_block logged
  rw [head_eq split, same]

/-- No two `Send` methods open with the same line. -/
theorem sent_inj {operation operation' : {operation : Operation // operation ∈ sendCalls}}
    (same : head (sent operation) = head (sent operation')) : operation = operation' := by
  have distinct : (sendCalls.map fun operation => (written (perform operation)).head?).Nodup := by decide +kernel
  have first (operation : {operation : Operation // operation ∈ sendCalls}) :
      (written (perform operation.1)).head? = some (head (sent operation)) :=
    List.head?_eq_some_head (block_ne_nil (sent operation))
  apply Subtype.ext
  apply List.inj_on_of_nodup_map distinct operation.2 operation'.2
  rw [first, first, same]

theorem head_injective : Function.Injective head := by
  intro a b same
  have openings : opening a = opening b := by rw [← verb_head, ← verb_head, same]
  cases a with
  | started =>
    cases b with
    | started => rfl
    | sent operation => exact absurd openings (by simp [opening])
    | handled type mid => exact absurd openings (by simp [opening])
  | sent operation =>
    cases b with
    | started => exact absurd openings (by simp [opening])
    | sent operation' => rw [sent_inj same]
    | handled type mid => exact absurd openings (by simp [opening])
  | handled type mid =>
    cases b with
    | started => exact absurd openings (by simp [opening])
    | sent operation => exact absurd openings (by simp [opening])
    | handled type' mid' =>
      rw [head_eq (block_handled type mid), head_eq (block_handled type' mid')] at same
      obtain ⟨rfl, rfl⟩ := cmduText_inj (congrArg Prod.snd same)
      rfl

end Logged

/-- The first line of a block determines the block. -/
def logCode : PrefixCode Logged Line := .headed Logged.head Logged.head_injective fun logged => logged.block.tail

theorem logCode_enc (logged : Logged) : logCode.enc logged = logged.block := List.cons_head_tail logged.block_ne_nil

/-- The block of an activity, where it writes one. -/
def Activity.logged : Activity → Option Logged
  | start => some .started
  | event (.call operation) =>
    match operation with
    | .handleCmdu cmdu => some (.handled cmdu.getType cmdu.getId)
    | operation => if send : operation ∈ sendCalls then some (.sent ⟨operation, send⟩) else none
  | event (.round _ outcome) => outcome.cmdu?.map fun cmdu => .handled cmdu.getType cmdu.getId

theorem Activity.logged_send {operation : Operation} (send : operation ∈ sendCalls) :
    (event (.call operation)).logged = some (.sent ⟨operation, send⟩) := by
  cases operation with
  | handleCmdu cmdu => simp [sendCalls] at send
  | _ =>
    simp only [logged]
    exact dif_pos send

theorem Activity.lines_eq (activity : Activity) : activity.lines = logCode.encAll activity.logged.toList := by
  have one (logged : Logged) : logCode.encAll (some logged).toList = logged.block := by
    rw [Option.toList_some, PrefixCode.encAll_cons, PrefixCode.encAll_nil, List.append_nil, logCode_enc]
  cases activity with
  | start => exact (one .started).symm
  | event e =>
    cases e with
    | call operation =>
      rcases mem_sendCalls operation with ⟨cmdu, rfl⟩ | send
      · exact (written_handleCmdu_new cmdu).trans (one (.handled cmdu.getType cmdu.getId)).symm
      · rw [logged_send send, one]
        rfl
    | round receivePacket outcome =>
      cases found : outcome.cmdu? with
      | none =>
        simp only [lines, logged, Event.log, found]
        rfl
      | some cmdu =>
        simp only [lines, logged, Event.log, found, Option.map_some, one]
        exact (List.flatMap_singleton _ _).trans (written_handleCmdu_new cmdu)

/-- The lines of activities are the words of their blocks. -/
theorem flatMap_lines (trace : List Activity) :
    trace.flatMap Activity.lines = logCode.encAll (trace.filterMap Activity.logged) := by
  induction trace with
  | nil => rfl
  | cons activity trace ih =>
    rw [List.flatMap_cons, ih, activity.lines_eq, ← PrefixCode.encAll_append]
    cases found : activity.logged with
    | none => rw [List.filterMap_cons_none found, Option.toList_none, List.nil_append]
    | some logged => rw [List.filterMap_cons_some found, Option.toList_some, List.singleton_append]

theorem new_log_inj {interfaceName interfaceName' : String}
    (same : (Ieee1905Agent.new interfaceName).log = (Ieee1905Agent.new interfaceName').log) :
    interfaceName = interfaceName' := by
  obtain ⟨line, -⟩ := List.cons.inj same
  have chars := congrArg (fun line => line.2.toList) line
  simp only [String.toList_append] at chars
  exact String.toList_inj.mp (List.append_cancel_left chars)

/-! ## Names -/

theorem dispatch_named {type : MessageType} (found : (dispatch type).isSome) : (cmduTypeNames.lookup type).isSome := by
  unfold dispatch at found
  split at found
  all_goals first
    | decide
    | cases found

theorem mem_of_lookup {type : MessageType} {name : String} (found : cmduTypeNames.lookup type = some name) :
    (type, name) ∈ cmduTypeNames := by
  obtain ⟨front, back, split, -⟩ := List.lookup_eq_some_iff.mp found
  rw [split]
  exact List.mem_append_right front List.mem_cons_self

/-- No two names are the same, and none is that of the default branch. -/
theorem cmduTypeToString_inj {type type' : MessageType} (named : (cmduTypeNames.lookup type).isSome)
    (same : cmduTypeToString type' = cmduTypeToString type) : type' = type := by
  have distinct : (cmduTypeNames.map Prod.snd).Nodup := by decide +kernel
  have unknown : "UNKNOWN_CMDU_TYPE" ∉ cmduTypeNames.map Prod.snd := by decide +kernel
  obtain ⟨name, found⟩ := Option.isSome_iff_exists.mp named
  have member := mem_of_lookup found
  rw [cmduTypeToString, cmduTypeToString, found] at same
  cases found' : cmduTypeNames.lookup type' with
  | none =>
    rw [found'] at same
    exact absurd (List.mem_map.mpr ⟨_, member, same.symm⟩) unknown
  | some name' =>
    rw [found'] at same
    have entries := List.inj_on_of_nodup_map distinct (mem_of_lookup found') member same
    exact congrArg Prod.fst entries

/-- **The log decodes.** Over any two lives of agents, through any calls, `Start` and rounds, the
logs are the same if and only if the agents are on the same interface, started their main loops at
the same place, called the same `Send` methods and handled CMDUs of the same types and ids, in the
same order: what arrived and was not handled leaves no line, and no log fits two histories. A type
that has a `Process` method is written under a name that no other type has. -/
theorem log_decodes {interfaceName interfaceName' : String} {trace trace' : List Activity} {s s' : Life}
    (run : (life interfaceName).Run trace s) (run' : (life interfaceName').Run trace' s') :
    (s.1.log = s'.1.log ↔
      interfaceName = interfaceName' ∧ trace.filterMap Activity.logged = trace'.filterMap Activity.logged) ∧
    ∀ type type', (dispatch type).isSome → cmduTypeToString type' = cmduTypeToString type → type' = type := by
  obtain ⟨-, log⟩ := life_log run
  obtain ⟨-, log'⟩ := life_log run'
  rw [flatMap_lines] at log log'
  constructor
  · rw [log, log']
    constructor
    · intro same
      obtain ⟨names, blocks⟩ := List.append_inj same rfl
      refine ⟨new_log_inj names, logCode.encAll_injective ?_ blocks⟩
      exact fun _ => List.cons_ne_nil _ _
    · rintro ⟨rfl, same⟩
      rw [same]
  · intro type type' handled same
    exact cmduTypeToString_inj (dispatch_named handled) same

/-- A send, the start of the main loop and a call of `HandleCmdu` with a type that has no method,
and the same with a failed round in between. -/
theorem log_decodes_unhandled :
    ∃ trace trace' s s', (life "eth0").Run trace s ∧ (life "eth0").Run trace' s' ∧ trace.length = 3 ∧ trace'.length = 4 ∧
      s.1.log = s'.1.log ∧
      s.1.log = [(.debug, "InterfaceManager: Initialized for interface eth0"), (.debug, "Ieee1905Agent: Agent initialized on eth0"),
        (.debug, "Ieee1905Agent: Sending Topology Discovery..."), (.debug, "InterfaceManager: Sending packet of size 20"),
        (.debug, "Ieee1905Agent: Starting main loop..."), (.debug, "Ieee1905Agent: Received CMDU ACK_1905 (0x8000), MID=0x00ff"),
        (.warn, "Ieee1905Agent: Unhandled CMDU ACK_1905 (0x8000), MID=0x00ff")] := by
  have init : (life "eth0").Run [] (.new "eth0", none) := .init rfl
  obtain ⟨agent, sending⟩ := (life_log init).1.exists_call .sendTopologyDiscovery
  have sent := init.step sending
  obtain ⟨_, _, -, started⟩ := run_start .nil sent
  obtain ⟨_, handling⟩ := (life_log started).1.exists_call (.handleCmdu (Cmdu.new 0x8000 0xff))
  have run := started.step handling
  obtain ⟨_, _, -, failed⟩ := run_start (.cons meets_receivePacket .nil) sent
  obtain ⟨_, handling'⟩ := (life_log failed).1.exists_call (.handleCmdu (Cmdu.new 0x8000 0xff))
  have run' := failed.step handling'
  obtain ⟨decodes, -⟩ := log_decodes run run'
  refine ⟨_, _, _, _, run, run', rfl, rfl, decodes.mpr ⟨rfl, rfl⟩, ?_⟩
  rw [(life_log run).2]
  decide +kernel

end Ieee1905.Agent

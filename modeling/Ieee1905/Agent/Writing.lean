import Ieee1905.Model.Agent

/-!
# The lines of a call

Nothing reads the log, so what a call writes on an agent with an empty log (`written`) it adds to
the log of any other agent. `Writes` are the calls that do nothing else, `handleCmdu_run` is
what `HandleCmdu` does besides.
-/

namespace Ieee1905.Agent

open Ieee1905Agent

/-- An agent with an empty log. -/
def blank : Ieee1905Agent := ⟨⟨"", []⟩, 1, [], [], []⟩

/-- The lines of a call on it. -/
def written {α : Type} (call : EStateM Fault Ieee1905Agent α) : List Line :=
  match call.run blank with
  | .ok _ agent => agent.log
  | .error _ agent => agent.log

theorem written_of_run {α : Type} {call : EStateM Fault Ieee1905Agent α} {a : α} {agent : Ieee1905Agent}
    (run : call.run blank = .ok a agent) : written call = agent.log := by
  rw [written, run]

/-- The call writes its lines, on any agent, and does nothing else. -/
def Writes (call : EStateM Fault Ieee1905Agent PUnit) : Prop :=
  ∀ agent, call.run agent = .ok .unit { agent with log := agent.log ++ written call }

theorem writes_emDebug (text : String) : Writes (emDebug text) := fun _ => rfl

theorem writes_emWarn (text : String) : Writes (emWarn text) := fun _ => rfl

/-- What `SPDLOG_DEBUG` is compiled to writes nothing. -/
theorem writes_pure : Writes (pure .unit) := by
  intro agent
  have none : agent.log ++ written (pure PUnit.unit) = agent.log := List.append_nil _
  rw [none]
  rfl

theorem startLoop_run (agent : Ieee1905Agent) :
    startLoop.run agent = .ok (List.replicate rxBufferSize 0) { agent with log := agent.log ++ written startLoop } := rfl

/-! ## `HandleCmdu` -/

theorem writes_process (handler : Handler) (cmdu : Cmdu) : Writes (process handler cmdu) := by
  cases handler
  all_goals first
    | exact writes_emDebug _
    | exact writes_pure

/-- The `switch`: what `HandleCmdu` does behind its first line. -/
def branch (cmdu : Cmdu) : EStateM Fault Ieee1905Agent PUnit :=
  match dispatch cmdu.getType with
  | some handler => process handler cmdu
  | none => emWarn (unhandledText cmdu.getType cmdu.getId)

theorem writes_branch (cmdu : Cmdu) : Writes (branch cmdu) := by
  unfold branch
  cases dispatch cmdu.getType with
  | some handler => exact writes_process handler cmdu
  | none => exact writes_emWarn (unhandledText cmdu.getType cmdu.getId)

theorem handleCmdu_branch (agent : Ieee1905Agent) (cmdu : Cmdu) :
    (handleCmdu cmdu).run agent = .ok .unit
      { agent with
        handled := agent.handled ++ [(cmdu, dispatch cmdu.getType)]
        log := agent.log ++ (.debug, receivedText cmdu.getType cmdu.getId) :: written (branch cmdu) } := by
  have last := writes_branch cmdu
    { agent with
      handled := agent.handled ++ [(cmdu, dispatch cmdu.getType)]
      log := agent.log ++ [(.debug, receivedText cmdu.getType cmdu.getId)] }
  rw [List.append_assoc, List.singleton_append] at last
  exact last

theorem written_handleCmdu (cmdu : Cmdu) :
    written (handleCmdu cmdu) = (.debug, receivedText cmdu.getType cmdu.getId) :: written (branch cmdu) :=
  written_of_run (handleCmdu_branch blank cmdu)

/-- **`HandleCmdu`** records the CMDU with its method and writes its lines. -/
theorem handleCmdu_run (agent : Ieee1905Agent) (cmdu : Cmdu) :
    (handleCmdu cmdu).run agent = .ok .unit
      { agent with
        handled := agent.handled ++ [(cmdu, dispatch cmdu.getType)]
        log := agent.log ++ written (handleCmdu cmdu) } := by
  rw [written_handleCmdu]
  exact handleCmdu_branch agent cmdu

/-- No `Process` method looks at its CMDU. -/
theorem process_eq (handler : Handler) (cmdu cmdu' : Cmdu) : process handler cmdu = process handler cmdu' := by
  cases handler <;> rfl

theorem branch_eq {cmdu cmdu' : Cmdu} (types : cmdu.getType = cmdu'.getType) (ids : cmdu.getId = cmdu'.getId) :
    branch cmdu = branch cmdu' := by
  unfold branch
  rw [types, ids]
  cases dispatch cmdu'.getType with
  | some handler => exact process_eq handler cmdu cmdu'
  | none => rfl

/-- TLVs, flags and fragment leave no line. -/
theorem written_handleCmdu_new (cmdu : Cmdu) :
    written (handleCmdu cmdu) = written (handleCmdu (Cmdu.new cmdu.getType cmdu.getId)) := by
  have branches : branch cmdu = branch (Cmdu.new cmdu.getType cmdu.getId) := branch_eq rfl rfl
  rw [written_handleCmdu, written_handleCmdu, branches]
  rfl

end Ieee1905.Agent

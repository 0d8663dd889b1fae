import SignalBoard.Proofs.Engine.Background

/-!
This module shows that the simulation never interferes with the work of the operator, nor the work with
the simulation: `Engine.work_without_simulation`. A run can be stripped of all its beats and pulses, and
the operator sees no difference in what the commands answer and do.
-/

namespace SignalBoard

/--
What an operator works on, which is all of an engine but its simulation. The editor holds the cursor, the
focus, the shortcuts and the command line.
-/
structure Work where
  modules : Grid Module
  active : OrderedSet Position
  editor : Editor
  history : List (List Record)
  maxHistory : Nat
  status : Option String
deriving DecidableEq

namespace Engine

def work (e : Engine) : Work where
  modules := e.board.modules
  active := e.board.active
  editor := e.editor
  history := e.history
  maxHistory := e.maxHistory
  status := e.status

/--
Whether an operation is the operator's. The others let time pass or bring in a pulse.
-/
def Operation.edits : Operation → Bool
  | .handle _ => true
  | .submit _ => true
  | .perform _ => true
  | .undo => true
  | .tick => false
  | .update _ => false
  | .addPulse _ => false

/--
The course of a run: for each operation its response, and the work after it.
-/
def transcript (e : Engine) : List Operation → List (Operation × Response × Work)
  | [] => []
  | op :: ops => (op, e.response op, (e.after op).work) :: (e.after op).transcript ops

/--
The engine in the middle of another simulation.
-/
def withSimulation (e : Engine) (s : Simulation) : Engine :=
  e.against { s with commandLine := e.editor.commandLine }

variable (e : Engine) (s : Simulation)

@[simp]
theorem withSimulation_simulation : e.withSimulation e.simulation = e := rfl

@[simp]
theorem simulation_withSimulation : (e.withSimulation s).simulation = s := rfl

@[simp]
theorem work_withSimulation : (e.withSimulation s).work = e.work := rfl

@[simp]
theorem commandLine_withSimulation
    : (e.withSimulation s).editor.commandLine = e.editor.commandLine := rfl

theorem clearLine_withSimulation
    : (e.withSimulation s).clearLine = e.clearLine.withSimulation s := rfl

theorem perform_withSimulation (actions : List Action)
    : (e.withSimulation s).perform actions
        =
      ((e.perform actions).1, (e.perform actions).2.withSimulation s) := by
  rw [withSimulation, perform_against, withSimulation, commandLine_perform]

theorem undo_withSimulation : (e.withSimulation s).undo = (e.undo.1, e.undo.2.withSimulation s) := by
  rw [withSimulation, undo_against, withSimulation, commandLine_undo]

theorem submit_withSimulation (command : String)
    : (e.withSimulation s).submit command
        =
      ((e.submit command).1, (e.submit command).2.withSimulation s) := by
  rw [withSimulation, submit_against, withSimulation, commandLine_submit]

theorem report_withSimulation (result : Except EngineError Unit)
    : (e.withSimulation s).report result = (e.report result).withSimulation s := by
  cases result <;> rfl

theorem handle_withSimulation (event : InputEvent)
    : ((e.withSimulation s).handle event).2 = (e.handle event).2.withSimulation s := by
  cases event with
  | char c => rfl
  | backspace => rfl
  | cancel => rfl
  | exit => rfl
  | undo => exact congrArg Prod.snd (undo_withSimulation e s)
  | arrow direction =>
    rw [handle_arrow, handle_arrow]
    exact congrArg Prod.snd (perform_withSimulation { e with status := none } s _)
  | confirm =>
    rw [handle_confirm, handle_confirm, ← report_withSimulation, clearLine_withSimulation,
      commandLine_withSimulation, submit_withSimulation]

variable {e f : Engine}

theorem eq_withSimulation_of_work (h : f.work = e.work) : f = e.withSimulation f.simulation := by
  obtain ⟨⟨modules, active, pulses⟩, editor, clock, beats, history, maxHistory, status⟩ := f
  obtain ⟨⟨_, _, _⟩, _, _, _, _, _, _⟩ := e
  simp only [work, Work.mk.injEq] at h
  obtain ⟨rfl, rfl, rfl, rfl, rfl, rfl⟩ := h
  rfl

section Edits

variable {op : Operation} (hop : op.edits = true)

include hop

theorem after_withSimulation (e : Engine) (s : Simulation)
    : (e.withSimulation s).after op = (e.after op).withSimulation s := by
  cases op with
  | handle event => exact handle_withSimulation e s event
  | submit command => exact congrArg Prod.snd (submit_withSimulation e s command)
  | perform actions => exact congrArg Prod.snd (perform_withSimulation e s actions)
  | undo => exact congrArg Prod.snd (undo_withSimulation e s)
  | tick => cases hop
  | update elapsed => cases hop
  | addPulse pulse => cases hop

theorem response_withSimulation (e : Engine) (s : Simulation)
    : (e.withSimulation s).response op = e.response op := by
  cases op with
  | handle event => simp only [response, control_handle]
  | submit command => rw [response, submit_withSimulation, response]
  | perform actions => rw [response, perform_withSimulation, response]
  | undo => rw [response, undo_withSimulation, response]
  | tick => cases hop
  | update elapsed => cases hop
  | addPulse pulse => cases hop

/--
The operator does not change the simulation.
-/
theorem simulation_after (e : Engine) : (e.after op).simulation = e.simulation := by
  -- an engine in the middle of its own simulation is itself
  have h := after_withSimulation hop e e.simulation
  rw [withSimulation_simulation] at h
  rw [h, simulation_withSimulation]

theorem work_after_congr (h : f.work = e.work) : (f.after op).work = (e.after op).work := by
  rw [eq_withSimulation_of_work h, after_withSimulation hop, work_withSimulation]

theorem response_congr (h : f.work = e.work) : f.response op = e.response op := by
  rw [eq_withSimulation_of_work h, response_withSimulation hop]

end Edits

/--
The simulation does not change the work of the operator.
-/
theorem work_after {op : Operation} (hop : op.edits = false) (e : Engine)
    : (e.after op).work = e.work := by
  cases op with
  | handle event => cases hop
  | submit command => cases hop
  | perform actions => cases hop
  | undo => cases hop
  | tick => rfl
  | update elapsed =>
    simp only [after, update]
    cases e.clock.advance elapsed with
    | error error => rfl
    | ok result =>
      obtain ⟨beat, clock⟩ := result
      cases beat <;> rfl
  | addPulse pulse =>
    simp only [after, Board.addPulse]
    split <;> rfl

theorem work_run_filter (h : f.work = e.work) (ops : List Operation)
    : (f.run (ops.filter Operation.edits)).work = (e.run ops).work := by
  induction ops generalizing e f with
  | nil => exact h
  | cons op ops ih =>
    cases hop : op.edits with
    | true =>
      rw [List.filter_cons_of_pos hop]
      exact ih (work_after_congr hop h)
    | false =>
      rw [List.filter_cons_of_neg (by simp [hop])]
      exact ih (h.trans (work_after hop e).symm)

theorem transcript_filter (h : f.work = e.work) (ops : List Operation)
    : f.transcript (ops.filter Operation.edits) = (e.transcript ops).filter (·.1.edits) := by
  induction ops generalizing e f with
  | nil => rfl
  | cons op ops ih =>
    cases hop : op.edits with
    | true =>
      have hafter := work_after_congr hop h
      simp only [transcript, List.filter_cons, hop, ↓reduceIte]
      rw [ih hafter, hafter, response_congr hop h]
    | false =>
      -- the stripped run stands still, and the work is still the same
      simp only [transcript, List.filter_cons, hop, Bool.false_eq_true, ↓reduceIte]
      exact ih (h.trans (work_after hop e).symm)

/--
In a run without its beats and pulses the operator gets the same answers, and the work is the same after
each operation and in the end. The operations that remain do not change the simulation.
-/
theorem work_without_simulation (e : Engine) (ops : List Operation)
    : e.transcript (ops.filter Operation.edits) = (e.transcript ops).filter (·.1.edits) ∧
      (e.run (ops.filter Operation.edits)).work = (e.run ops).work ∧
      ∀ op, op.edits = true → ((e.run ops).after op).simulation = (e.run ops).simulation := by
  refine ⟨transcript_filter rfl ops, work_run_filter rfl ops, ?_⟩
  intro op hop
  exact simulation_after hop (e.run ops)

theorem work_without_simulation_emitter
    : let e := Engine.new ⟨2, 1⟩ .zero .default
      let ops := [.submit "s", .perform [.changeProperty [("right_is_output", "true")]], .tick,
        .handle (.char 'l'), .addPulse ⟨⟨1, 0⟩, .left⟩, .handle .confirm, .update .zero, .undo,
        .perform [.changeType "spreader", .changeType "mixer"]]
      let commands := [.submit "s", .perform [.changeProperty [("right_is_output", "true")]],
        .handle (.char 'l'), .handle .confirm, .undo,
        .perform [.changeType "spreader", .changeType "mixer"]]
      (e.run commands).work = (e.run ops).work ∧
      (e.run commands).board.pulses.toList = [] ∧
      (e.run ops).board.pulses.toList = [⟨⟨1, 0⟩, .right⟩, ⟨⟨0, 0⟩, .left⟩] ∧
      ((e.run ops).after .undo).simulation = (e.run ops).simulation := by
  intro e ops commands
  have hfilter : ops.filter Operation.edits = commands := by decide
  have hcommands : (e.run commands).board.pulses.toList = [] := by decide +kernel
  have hops : (e.run ops).board.pulses.toList = [⟨⟨1, 0⟩, .right⟩, ⟨⟨0, 0⟩, .left⟩] := by
    decide +kernel
  obtain ⟨_, hwork, hsimulation⟩ := work_without_simulation e ops
  rw [hfilter] at hwork
  exact ⟨hwork, hcommands, hops, hsimulation .undo rfl⟩

end Engine

end SignalBoard

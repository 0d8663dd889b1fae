import SignalBoard.Frame.Text
import SignalBoard.Proofs.Engine.Perform

/-!
This module contains the operations of an engine and runs of them. `Engine.responds_after` says all
that an operation can do: it carries out one batch through `Engine.perform`, or takes one back through
`Engine.undo`, or leaves the modules, the cursor and the history alone.
-/

namespace SignalBoard

namespace Engine

/--
Write the refusal of a command to the status.
-/
def report (e : Engine) (result : Except EngineError Unit) : Engine :=
  match result with
  | .error error => { e with status := some error.message }
  | .ok () => e

def clearLine (e : Engine) : Engine :=
  { e with editor := { e.editor with commandLine := "" } }

theorem handle_confirm (e : Engine)
    : (e.handle .confirm).2
        =
      report (e.clearLine.submit e.editor.commandLine).2
        (e.clearLine.submit e.editor.commandLine).1 := by
  simp only [handle, Editor.input, submit, clearLine]
  cases Editor.interpret { e.editor with commandLine := "" } e.editor.commandLine with
  | error error => rfl
  | ok result =>
    obtain ⟨outcome, editor⟩ := result
    dsimp only
    generalize dispatch { e with editor := editor } outcome = dispatched
    obtain ⟨result, e'⟩ := dispatched
    cases result <;> rfl

theorem handle_arrow (e : Engine) (direction : Direction)
    : (e.handle (.arrow direction)).2
        =
      ({ e with status := none }.perform [.moveCursor direction]).2 := by
  simp only [handle, Editor.input, dispatch]
  rfl

/--
Only the wish to leave ends the loop; no refusal does.
-/
theorem control_handle (e : Engine) (event : InputEvent)
    : (e.handle event).1 = if event = .exit then .exit else .proceed := by
  cases event with
  | char _ => rfl
  | backspace => rfl
  | cancel => rfl
  | undo => rfl
  | exit => rfl
  | arrow direction =>
    simp only [handle, Editor.input]
    generalize dispatch _ _ = dispatched
    obtain ⟨result, e'⟩ := dispatched
    cases result <;> rfl
  | confirm =>
    simp only [handle, Editor.input]
    cases Editor.interpret { e.editor with commandLine := "" } e.editor.commandLine with
    | error error => rfl
    | ok interpreted =>
      dsimp only
      generalize dispatch _ _ = dispatched
      obtain ⟨result, e'⟩ := dispatched
      cases result <;> rfl

/--
What can be done to an engine through itself, and the adding of pulses to its board.
-/
inductive Operation where
  | handle (event : InputEvent)
  | submit (command : String)
  | perform (actions : List Action)
  | undo
  | tick
  | update (elapsed : Duration)
  | addPulse (pulse : Pulse)
deriving DecidableEq

/--
The engine after an operation, be it refused or not. Time that the clock cannot collect is not
collected.
-/
def after (e : Engine) : Operation → Engine
  | .handle event => (e.handle event).2
  | .submit command => (e.submit command).2
  | .perform actions => (e.perform actions).2
  | .undo => e.undo.2
  | .tick => e.tick
  | .update elapsed =>
    match e.update elapsed with
    | .ok (_, e) => e
    | .error _ => e
  | .addPulse pulse => { e with board := e.board.addPulse pulse }

def run (e : Engine) : List Operation → Engine
  | [] => e
  | op :: ops => (e.after op).run ops

/--
What an operation hands back.
-/
inductive Response where
  | control (control : Control)
  | submitted (result : Except EngineError Unit)
  | performed (result : Except ActionError Unit)
  /-- Whether there was a batch to take back. -/
  | undone (found : Bool)
  | ticked
  /-- Whether there was a beat. -/
  | updated (result : Except ClockError Bool)
  /-- Whether the pulse was added. -/
  | added (accepted : Bool)

def response (e : Engine) : Operation → Response
  | .handle event => .control (e.handle event).1
  | .submit command => .submitted (e.submit command).1
  | .perform actions => .performed (e.perform actions).1
  | .undo => .undone e.undo.1
  | .tick => .ticked
  | .update elapsed => .updated ((e.update elapsed).map Prod.fst)
  | .addPulse pulse => .added (e.board.accepts pulse)

/--
What the operator gets to see of a run: for each operation its response, and the drawn frame after it.
-/
def trace (e : Engine) : List Operation → List (Response × String)
  | [] => []
  | op :: ops => (e.response op, (e.after op).frame.render) :: (e.after op).trace ops

end Engine

/--
What an operation asks for. Everything but a batch and an undo leaves the modules alone.
-/
inductive Request where
  | batch (actions : List Action)
  | undo
  | nothing
deriving DecidableEq

/--
What a command asks for.
-/
def Editor.request (e : Editor) (command : String) : Request :=
  match e.interpret command with
  | .ok (.actions actions, _) => .batch actions
  | .ok (.focused _, _) => .nothing
  | .error _ => .nothing

def Engine.request (e : Engine) : Engine.Operation → Request
  | .handle .confirm => e.clearLine.editor.request e.editor.commandLine
  | .handle (.arrow direction) => .batch [.moveCursor direction]
  | .handle .undo => .undo
  | .handle _ => .nothing
  | .submit command => e.editor.request command
  | .perform actions => .batch actions
  | .undo => .undo
  | .tick => .nothing
  | .update _ => .nothing
  | .addPulse _ => .nothing

/--
A property of boards that is kept by everything that changes a board.
-/
structure Board.Kept (P : Board → Prop) : Prop where
  install : ∀ b p m, P b → P (b.install p m)
  update : ∀ b beat, P b → P (b.update beat)
  addPulse : ∀ b pulse, P b → P (b.addPulse pulse)

theorem Board.kept_activationExact : Board.Kept Board.ActivationExact where
  install _ p m h := h.install p m
  update _ beat h := h.update beat
  addPulse _ pulse h := h.addPulse pulse

theorem Board.kept_size (size : Size) : Board.Kept (·.size = size) where
  install _ p m h := (size_install _ p m).trans h
  update _ _ h := h
  addPulse _ pulse h := (size_addPulse _ pulse).trans h

namespace Engine

/--
The engine `e'` differs from `e` at most in its pulses, its beats and clock, its command line and status,
and its focus. The focus is kept, or dropped, or goes to a property that has a shortcut.
-/
structure Quiet (e e' : Engine) : Prop where
  board : ∀ P, Board.Kept P → P e.board → P e'.board
  modules : e'.board.modules = e.board.modules
  cursor : e'.editor.cursor = e.editor.cursor
  keytable : e'.editor.keytable = e.editor.keytable
  shortcuts : e'.editor.shortcuts = e.editor.shortcuts
  focus : ∀ prop, e'.editor.focus = some prop →
    e.editor.focus = some prop ∨ ∃ key, e.editor.shortcuts.lookup key = some prop
  history : e'.history = e.history
  maxHistory : e'.maxHistory = e.maxHistory

namespace Quiet

theorem refl (e : Engine) : e.Quiet e := by
  constructor
  case board => exact fun _ _ h => h
  case focus => exact fun _ h => .inl h
  all_goals rfl

theorem trans {e f g : Engine} (hf : e.Quiet f) (hg : f.Quiet g) : e.Quiet g := by
  constructor
  case board =>
    intro P hP h
    exact hg.board P hP (hf.board P hP h)
  case modules => rw [hg.modules, hf.modules]
  case cursor => rw [hg.cursor, hf.cursor]
  case keytable => rw [hg.keytable, hf.keytable]
  case shortcuts => rw [hg.shortcuts, hf.shortcuts]
  case focus =>
    intro prop hprop
    rcases hg.focus prop hprop with hfocus | hkey
    · exact hf.focus prop hfocus
    · rw [hf.shortcuts] at hkey
      exact .inr hkey
  case history => rw [hg.history, hf.history]
  case maxHistory => rw [hg.maxHistory, hf.maxHistory]

theorem typed (e : Engine) (line : String) {focus : Option Property} (status : Option String)
    (hfocus : ∀ prop, focus = some prop →
      e.editor.focus = some prop ∨ ∃ key, e.editor.shortcuts.lookup key = some prop)
    : e.Quiet { e with
        editor := { e.editor with commandLine := line, focus := focus }
        status := status } := by
  constructor
  case board => exact fun _ _ h => h
  case focus => exact hfocus
  all_goals rfl

theorem tick (e : Engine) : e.Quiet e.tick := by
  constructor
  case board => exact fun _ hP h => hP.update _ _ h
  case focus => exact fun _ h => .inl h
  all_goals rfl

theorem addPulse (e : Engine) (pulse : Pulse)
    : e.Quiet { e with board := e.board.addPulse pulse } := by
  constructor
  case board => exact fun _ hP h => hP.addPulse _ pulse h
  case modules =>
    dsimp only
    unfold Board.addPulse
    split <;> rfl
  case focus => exact fun _ h => .inl h
  all_goals rfl

theorem update (e : Engine) (elapsed : Duration) : e.Quiet (e.after (.update elapsed)) := by
  have hclock : ∀ clock, e.Quiet { e with clock := clock } := by
    intro clock
    constructor
    case board => exact fun _ _ h => h
    case focus => exact fun _ h => .inl h
    all_goals rfl
  simp only [after, Engine.update]
  cases e.clock.advance elapsed with
  | error error => exact refl e
  | ok result =>
    obtain ⟨beat, clock⟩ := result
    cases beat with
    | false => exact hclock clock
    | true => exact (hclock clock).trans (tick _)

theorem report (e : Engine) (result : Except EngineError Unit) : e.Quiet (e.report result) := by
  unfold Engine.report
  split
  · exact typed e e.editor.commandLine _ fun _ h => .inl h
  · exact refl e

end Quiet

/--
The engine `next` is what `e` becomes when it is asked for something, and does nothing else that
matters.
-/
inductive Responds (e : Engine) : Request → Engine → Prop where
  | batch {start next : Engine} (actions : List Action) (hstart : e.Quiet start)
      (hnext : (start.perform actions).2.Quiet next) : Responds e (.batch actions) next
  | undo {start next : Engine} (hstart : e.Quiet start) (hnext : start.undo.2.Quiet next)
      : Responds e .undo next
  | nothing {next : Engine} (hnext : e.Quiet next) : Responds e .nothing next

theorem Responds.around {e f g next : Engine} {request : Request} (he : e.Quiet f)
    (hf : f.Responds request g) (hg : g.Quiet next) : e.Responds request next := by
  cases hf with
  | batch actions hstart hnext => exact .batch actions (he.trans hstart) (hnext.trans hg)
  | undo hstart hnext => exact .undo (he.trans hstart) (hnext.trans hg)
  | nothing hnext => exact .nothing ((he.trans hnext).trans hg)

theorem responds_submit (e : Engine) (command : String)
    : e.Responds (e.editor.request command) (e.submit command).2 := by
  unfold Editor.request submit
  cases hinterpret : e.editor.interpret command with
  | error error => exact .nothing (.refl e)
  | ok result =>
    obtain ⟨outcome, editor⟩ := result
    rcases Editor.cases_of_interpret hinterpret with
      ⟨actions, focus, rfl, hfocus, rfl⟩ | ⟨key, prop, hkey, rfl, rfl⟩
    · have hstart : e.Quiet { e with
          editor := { e.editor with focus := focus }
          status := none } := by
        apply Quiet.typed e e.editor.commandLine
        intro prop hprop
        rcases hfocus with rfl | rfl
        · cases hprop
        · exact .inl hprop
      exact .batch actions hstart (.refl _)
    · apply Responds.nothing
      apply Quiet.typed e e.editor.commandLine
      intro _ hprop
      cases hprop
      exact .inr ⟨key, hkey⟩

theorem responds_handle (e : Engine) (event : InputEvent)
    : e.Responds (e.request (.handle event)) (e.handle event).2 := by
  have hkept : ∀ prop, e.editor.focus = some prop →
      e.editor.focus = some prop ∨ ∃ key, e.editor.shortcuts.lookup key = some prop :=
    fun _ h => .inl h
  cases event with
  | char c => exact .nothing (.typed e _ _ hkept)
  | backspace => exact .nothing (.typed e _ _ hkept)
  | cancel => exact .nothing (.typed e _ _ nofun)
  | exit => exact .nothing (.refl e)
  | undo => exact .undo (.refl e) (.refl _)
  | arrow direction =>
    rw [handle_arrow]
    exact .batch _ (.typed e e.editor.commandLine none hkept) (.refl _)
  | confirm =>
    rw [handle_confirm]
    apply Responds.around (f := e.clearLine) _ (responds_submit _ _) (.report _ _)
    exact .typed e "" e.status hkept

/--
All that an operation can do.
-/
theorem responds_after (e : Engine) (op : Operation) : e.Responds (e.request op) (e.after op) := by
  cases op with
  | handle event => exact responds_handle e event
  | submit command => exact responds_submit e command
  | perform actions => exact .batch actions (.refl e) (.refl _)
  | undo => exact .undo (.refl e) (.refl _)
  | tick => exact .nothing (.tick e)
  | update elapsed => exact .nothing (.update e elapsed)
  | addPulse pulse => exact .nothing (.addPulse e pulse)

section Kept

variable {P : Board → Prop} (hP : Board.Kept P) {e : Engine}

include hP

theorem kept_perform (h : P e.board) (actions : List Action) : P (e.perform actions).2.board := by
  have hrun : P (e.startBatch.run actions).1.board :=
    Batch.run_board_induction hP.install h actions
  rcases perform_cases e actions with ⟨s, hs, hperform⟩ | ⟨s, error, hs, hperform⟩
  · rw [hs] at hrun
    simpa [hperform] using hrun
  · rw [hs] at hrun
    rw [hperform]
    exact Board.revertAll_induction hP.install hrun s.records

theorem kept_undo (h : P e.board) : P e.undo.2.board := by
  cases hhistory : e.history with
  | nil =>
    rw [undo_nil hhistory]
    exact h
  | cons records older =>
    rw [undo_cons hhistory]
    exact Board.revertAll_induction hP.install h records

theorem kept_after (h : P e.board) (op : Operation) : P (e.after op).board := by
  have hresponds := responds_after e op
  generalize e.request op = request, e.after op = next at hresponds ⊢
  cases hresponds with
  | batch actions hstart hnext =>
    exact hnext.board P hP (kept_perform hP (hstart.board P hP h) actions)
  | undo hstart hnext => exact hnext.board P hP (kept_undo hP (hstart.board P hP h))
  | nothing hnext => exact hnext.board P hP h

theorem kept_run (h : P e.board) (ops : List Operation) : P (e.run ops).board := by
  induction ops generalizing e with
  | nil => exact h
  | cons op ops ih => exact ih (kept_after hP h op)

end Kept

end Engine

end SignalBoard

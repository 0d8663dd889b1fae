import SignalBoard.Proofs.Action.Plain
import SignalBoard.Proofs.Engine.Fault
import SignalBoard.Proofs.Engine.Separation
import SignalBoard.Proofs.Engine.Snapshots

/-!
This module shows that no text of an engine gets a newline as long as none is typed: `Engine.Plain.after`.
That undoing brings none back is seen from the copies of the modules that it would put back, and from the
conflicts that it does not meet and so does not report.
-/

namespace SignalBoard

namespace Grid

/--
No setting of a module is a newline.
-/
def Plain (g : Grid Module) : Prop :=
  ∀ p m, g.get? p = some m → m.Plain

namespace Plain

variable {g : Grid Module}

theorem set (h : g.Plain) (p : Position) {m : Module} (hm : m.Plain) : (g.set p m).Plain := by
  by_cases hp : p ∈ g.size
  · intro q r hr
    rw [get?_set hp] at hr
    split at hr
    · cases hr
      exact hm
    · exact h q r hr
  · rw [set_of_notMem hp]
    exact h

theorem batch? (h : g.Plain) {cursor : Position} {actions : List Action}
    (hactions : ∀ action ∈ actions, action.Plain) {g' : Grid Module}
    (hbatch : g.batch? cursor actions = some g') : g'.Plain := by
  induction actions generalizing g cursor with
  | nil =>
    cases hbatch
    exact h
  | cons action rest ih =>
    rw [List.forall_mem_cons] at hactions
    rw [Grid.batch?] at hbatch
    split at hbatch
    · exact ih h hactions.2 hbatch
    · split at hbatch
      · cases hbatch
      · rename_i m hm
        split at hbatch
        · cases hbatch
        · rename_i happly
          exact ih (h.set cursor (hactions.1.apply (h cursor m hm) happly)) hactions.2 hbatch

end Plain

end Grid

/--
All actions that are asked for are plain.
-/
def Request.Plain : Request → Prop
  | .batch actions => ∀ action ∈ actions, action.Plain
  | .undo => True
  | .nothing => True

namespace Snapshots

/--
Neither the modules nor the copies of them have a newline.
-/
structure Plain (s : Snapshots) : Prop where
  grid : s.grid.Plain
  stack : ∀ g ∈ s.stack, g.Plain

namespace Plain

variable {s : Snapshots}

theorem new (size : Size) (limit : Nat) : (Snapshots.new size limit).Plain where
  grid := by
    intro p m hm
    change (Grid.ofFn size _).get? p = some m at hm
    rw [Grid.get?_ofFn] at hm
    split at hm
    · cases hm
      exact Module.plain_new .empty p
    · cases hm
  stack := nofun

theorem batch (h : s.Plain) (cursor : Position) {actions : List Action}
    (hactions : ∀ action ∈ actions, action.Plain) : (s.batch cursor actions).Plain := by
  unfold Snapshots.batch
  split
  · exact h
  · rename_i g hbatch
    split
    · constructor
      · exact h.grid.batch? hactions hbatch
      · intro copy hcopy
        rcases List.mem_cons.mp (List.mem_of_mem_take hcopy) with rfl | hcopy
        · exact h.grid
        · exact h.stack copy hcopy
    · exact h

theorem undo (h : s.Plain) : s.undo.2.Plain := by
  unfold Snapshots.undo
  split
  · exact h
  · rename_i g stack hstack
    have hcopies := h.stack
    rw [hstack, List.forall_mem_cons] at hcopies
    exact ⟨hcopies.1, hcopies.2⟩

theorem follow (h : s.Plain) (cursor : Position) {request : Request} (hrequest : request.Plain)
    : (s.follow cursor request).Plain := by
  cases request with
  | batch actions => exact h.batch cursor hrequest
  | undo => exact h.undo
  | nothing => exact h

end Plain

end Snapshots

theorem Board.plain_of_mem_propertiesAt {b : Board} (h : b.modules.Plain) {p : Position}
    {prop : Property} (hprop : prop ∈ b.propertiesAt p) : prop.Plain := by
  unfold propertiesAt at hprop
  split at hprop
  · rename_i m hm
    exact (h p m hm).properties hprop
  · cases hprop

theorem Batch.singleLine_of_run {s stop : Batch} {actions : List Action} {error : ActionError}
    (hactions : ∀ action ∈ actions, action.Plain) (h : s.run actions = (stop, some error))
    : Text.SingleLine error.message := by
  obtain ⟨_, action, _, rfl, _, hrefused⟩ := exists_of_run_error h
  have haction : action.Plain := hactions action (by simp)
  obtain ⟨_, happly⟩ := step_eq_error_iff.mp hrefused
  unfold Board.apply at happly
  split at happly
  · cases happly
    change Text.SingleLine s!"position {stop.cursor.render} is outside the board"
    simp +decide [Position.render]
  · split at happly
    · rename_i hfailed
      cases happly
      exact haction.singleLine_message hfailed
    · cases happly

/--
The texts of the operation are of one line.
-/
def Engine.Operation.Plain : Operation → Prop
  | .handle (.char c) => c ≠ '\n'
  | .handle _ => True
  | .submit command => Text.SingleLine command
  | .perform actions => ∀ action ∈ actions, action.Plain
  | .undo => True
  | .tick => True
  | .update _ => True
  | .addPulse _ => True

namespace Engine

/--
The editor knows the module under the cursor, and there is no newline in any text of the engine.
-/
structure Plain (settings : Settings) (e : Engine) : Prop extends e.Follows settings where
  commandLine : Text.SingleLine e.editor.commandLine
  status : ∀ status ∈ e.status, Text.SingleLine status
  /-- Neither the modules nor what they can be undone to have a newline. -/
  snapshots : ∃ s, e.Mirrors s ∧ s.Plain

theorem singleLine_of_perform {e : Engine} {actions : List Action}
    (hactions : ∀ action ∈ actions, action.Plain) {error : ActionError}
    (h : (e.perform actions).1 = .error error) : Text.SingleLine error.message := by
  rcases perform_cases e actions with ⟨s, _, hperform⟩ | ⟨s, refused, hrun, hperform⟩
  · rw [hperform] at h
    cases h
  · rw [hperform] at h
    cases h
    exact Batch.singleLine_of_run hactions hrun

theorem editor_report (e : Engine) (result : Except EngineError Unit)
    : (e.report result).editor = e.editor := by
  cases result <;> rfl

theorem status_perform (e : Engine) (actions : List Action)
    : (e.perform actions).2.status = e.status := by
  rcases perform_cases e actions with ⟨s, _, hperform⟩ | ⟨s, error, _, hperform⟩
  · rw [hperform]
    simp only [accepted, refresh, remember]
    split <;> rfl
  · rw [hperform]
    rfl

namespace Plain

variable {settings : Settings} {e : Engine}

theorem new (size : Size) (step : Duration) (settings : Settings)
    : (Engine.new size step settings).Plain settings where
  toFollows := .new size step settings
  commandLine := by
    change Text.SingleLine ""
    decide
  status := nofun
  snapshots := ⟨_, .new size step settings, .new size settings.maxHistory⟩

theorem modules (h : e.Plain settings) : e.board.modules.Plain := by
  obtain ⟨s, hmirrors, hs⟩ := h.snapshots
  rw [hmirrors.modules]
  exact hs.grid

theorem properties (h : e.Plain settings) {prop : Property}
    (hprop : prop ∈ e.board.propertiesAt e.editor.cursor) : prop.Plain :=
  Board.plain_of_mem_propertiesAt h.modules hprop

theorem shortcut (h : e.Plain settings) {prop : Property}
    (hprop : e.editor.focus = some prop ∨ ∃ key, e.editor.shortcuts.lookup key = some prop)
    : prop.Plain :=
  h.properties (List.mem_of_find?_eq_some (h.lookup_of_shortcut hprop))

theorem clearLine (h : e.Plain settings) : e.clearLine.Plain settings where
  toFollows := ⟨h.keytable, h.shortcuts, h.focus⟩
  commandLine := by
    change Text.SingleLine ""
    decide
  status := h.status
  snapshots := by
    obtain ⟨s, hmirrors, hs⟩ := h.snapshots
    exact ⟨s, ⟨hmirrors.modules, hmirrors.limit, hmirrors.history⟩, hs⟩

theorem status_undo (h : e.Plain settings) : ∀ status ∈ e.undo.2.status, Text.SingleLine status := by
  cases hhistory : e.history with
  | nil =>
    rw [undo_nil hhistory]
    rintro _ ⟨⟩
    decide
  | cons records older =>
    obtain ⟨s, hmirrors, _⟩ := h.snapshots
    have hundo := hmirrors.revertAll_eq hhistory
    rw [undo_cons hhistory]
    simp only [undone, refresh, hundo]
    exact h.status

section Command

variable (hkeys : ∀ entry ∈ settings.keytable.bindings, entry.2.namesKind = true)
  {command : String} (hcommand : Text.SingleLine command)

include hkeys hcommand

theorem actions_of_interpret (h : e.Plain settings) {actions : List Action} {editor : Editor}
    (hinterpret : e.editor.interpret command = .ok (.actions actions, editor))
    : ∀ action ∈ actions, action.Plain := by
  intro action haction
  rcases Editor.actions_of_interpret hinterpret with ⟨prop, value, rfl, hvalue, hprop⟩ | hread
  · obtain rfl := List.mem_singleton.mp haction
    intro entry hentry
    obtain rfl := List.mem_singleton.mp hentry
    refine ⟨(h.shortcut hprop).name, ?_⟩
    rcases hvalue with rfl | ⟨key, hkey⟩
    · exact hcommand
    · rw [Text.SingleLine, hkey, List.mem_cons, not_or] at hcommand
      exact hcommand.2
  · obtain ⟨key, _, hresolve⟩ := RepeatExpression.exists_key_of_read hread haction
    rcases Keytable.cases_of_resolve? hresolve with ⟨target, hbinding, rfl⟩ | ⟨direction, rfl⟩
    · rw [h.keytable] at hbinding
      have hnamed := hkeys _ (Keytable.mem_of_lookup hbinding)
      rw [Binding.namesKind] at hnamed
      rw [Action.Plain]
      exact hnamed
    · trivial

theorem request (h : e.Plain settings) : (e.editor.request command).Plain := by
  unfold Editor.request
  split
  · rename_i hinterpret
    exact h.actions_of_interpret hkeys hcommand hinterpret
  · trivial
  · trivial

theorem singleLine_of_submit (h : e.Plain settings) {error : EngineError}
    (hrefused : (e.submit command).1 = .error error) : Text.SingleLine error.message := by
  rcases e.submit_cases command with ⟨refused, hinterpret, hsubmit⟩ |
    ⟨actions, editor, hinterpret, hsubmit⟩ | ⟨prop, editor, _, hsubmit⟩
  · rw [hsubmit] at hrefused
    cases hrefused
    have hread := Editor.read_of_interpret_error hinterpret
    obtain ⟨c, hc, rfl⟩ := RepeatExpression.read_eq_error_iff.mp hread
    obtain ⟨hmem, _, _⟩ := RepeatExpression.mem_of_firstUnbound? hc
    have hne : c ≠ '\n' := by
      rintro rfl
      exact hcommand hmem
    change Text.SingleLine s!"unknown command '{c}'"
    simp +decide [hne]
  · rw [hsubmit] at hrefused
    cases hfailed : ((e.interpreted editor).perform actions).1 with
    | ok _ =>
      rw [hfailed] at hrefused
      cases hrefused
    | error refused =>
      rw [hfailed] at hrefused
      cases hrefused
      exact singleLine_of_perform (h.actions_of_interpret hkeys hcommand hinterpret) hfailed
  · rw [hsubmit] at hrefused
    cases hrefused

end Command

theorem status_submit (h : e.Plain settings) (command : String)
    : ∀ status ∈ (e.submit command).2.status, Text.SingleLine status := by
  rcases e.submit_cases command with ⟨_, _, hsubmit⟩ | ⟨actions, editor, _, hsubmit⟩ |
    ⟨prop, editor, hinterpret, hsubmit⟩
  · rw [hsubmit]
    exact h.status
  · rw [hsubmit, status_perform]
    nofun
  · rw [hsubmit]
    rcases Editor.cases_of_interpret hinterpret with ⟨_, _, ⟨⟩, _⟩ | ⟨key, _, hkey, ⟨⟩, _⟩
    have hprop := h.shortcut (.inr ⟨key, hkey⟩)
    have htext : Text.SingleLine s!"{prop.label} [{prop.kind.name}] = {prop.value}" := by
      simp +decide [hprop.label, hprop.value, prop.kind.singleLine_name]
    intro status hstatus
    rwa [Option.mem_some.mp hstatus] at htext

theorem commandLine_handle (h : e.Plain settings) {event : InputEvent}
    (hevent : Operation.Plain (.handle event))
    : Text.SingleLine (e.handle event).2.editor.commandLine := by
  cases event with
  | char c => exact Text.singleLine_push.mpr ⟨h.commandLine, hevent⟩
  | backspace =>
    apply Text.singleLine_ofList.mpr
    intro hnewline
    exact h.commandLine (List.dropLast_subset _ hnewline)
  | confirm =>
    rw [handle_confirm, editor_report, commandLine_submit]
    exact h.clearLine.commandLine
  | cancel =>
    change Text.SingleLine ""
    decide
  | arrow direction =>
    rw [handle_arrow, commandLine_perform]
    exact h.commandLine
  | undo =>
    change Text.SingleLine e.undo.2.editor.commandLine
    rw [commandLine_undo]
    exact h.commandLine
  | exit => exact h.commandLine

section Operation

variable (hkeys : ∀ entry ∈ settings.keytable.bindings, entry.2.namesKind = true)

include hkeys

theorem status_handle (h : e.Plain settings) (event : InputEvent)
    : ∀ status ∈ (e.handle event).2.status, Text.SingleLine status := by
  cases event with
  | confirm =>
    have hstatus := h.clearLine.status_submit e.editor.commandLine
    rw [handle_confirm]
    cases hrefused : (e.clearLine.submit e.editor.commandLine).1 with
    | ok _ => exact hstatus
    | error error =>
      intro status hreported
      obtain rfl : error.message = status := Option.mem_some.mp hreported
      exact h.clearLine.singleLine_of_submit hkeys h.commandLine hrefused
  | arrow direction =>
    rw [handle_arrow, status_perform]
    nofun
  | undo => exact h.status_undo
  | char c => exact h.status
  | backspace => exact h.status
  | cancel => exact h.status
  | exit => exact h.status

variable {op : Operation} (hop : op.Plain)

include hop

theorem request_operation (h : e.Plain settings) : (e.request op).Plain := by
  cases op with
  | handle event =>
    cases event with
    | confirm => exact h.clearLine.request hkeys h.commandLine
    | arrow direction =>
      intro action haction
      obtain rfl := List.mem_singleton.mp haction
      trivial
    | char c => trivial
    | backspace => trivial
    | cancel => trivial
    | undo => trivial
    | exit => trivial
  | submit command => exact h.request hkeys hop
  | perform actions => exact hop
  | undo => trivial
  | tick => trivial
  | update elapsed => trivial
  | addPulse pulse => trivial

theorem texts_after (h : e.Plain settings)
    : Text.SingleLine (e.after op).editor.commandLine ∧
        ∀ status ∈ (e.after op).status, Text.SingleLine status := by
  cases hedits : op.edits with
  | false =>
    have hwork := work_after hedits e
    have heditor : (e.after op).editor = e.editor := congrArg Work.editor hwork
    have hstatus : (e.after op).status = e.status := congrArg Work.status hwork
    rw [heditor, hstatus]
    exact ⟨h.commandLine, h.status⟩
  | true =>
    cases op with
    | handle event => exact ⟨h.commandLine_handle hop, h.status_handle hkeys event⟩
    | submit command =>
      rw [Engine.after, commandLine_submit]
      exact ⟨h.commandLine, h.status_submit command⟩
    | perform actions =>
      rw [Engine.after, commandLine_perform, status_perform]
      exact ⟨h.commandLine, h.status⟩
    | undo =>
      rw [Engine.after, commandLine_undo]
      exact ⟨h.commandLine, h.status_undo⟩
    | tick => cases hedits
    | update elapsed => cases hedits
    | addPulse pulse => cases hedits

/--
An operation whose texts are of one line brings no newline into the texts of an engine.
-/
theorem after (h : e.Plain settings) : (e.after op).Plain settings := by
  obtain ⟨hcommandLine, hstatus⟩ := h.texts_after hkeys hop
  obtain ⟨s, hmirrors, hs⟩ := h.snapshots
  have hrequest := h.request_operation hkeys hop
  exact ⟨h.toFollows.after op, hcommandLine, hstatus, _, hmirrors.after op, hs.follow _ hrequest⟩

end Operation

end Plain

end Engine

end SignalBoard

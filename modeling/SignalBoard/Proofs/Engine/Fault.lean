import Mathlib.Control.Monad.Basic
import SignalBoard.Proofs.Engine.Coherence
import SignalBoard.Proofs.RepeatExpression.Reading

/-!
This module shows that a command is only refused for what was typed: `Engine.refused_for_command`. Where
the cursor stands and what was done before play no part in it.
-/

namespace SignalBoard

/--
Whether a key that changes the type of a module is bound to a kind that there is.
-/
def Binding.namesKind : Binding → Bool
  | .changeType target => (ModuleKind.ofName? target).isSome
  | .moveCursor _ => true

/--
What can be wrong with a command, with the error that reports it. The properties are those of the module
under the cursor.
-/
inductive CommandFault (keytable : Keytable) (props : PropertyMap) (command : String)
    : EngineError → Prop where
  | unboundCharacter {c : Char} (hc : c ∈ command.toList) (hdigit : c.isDigit = false)
      (hunbound : keytable.contains c = false)
      : CommandFault keytable props command (.command (.unknownCommand c))
  | unknownKind {key : Char} {target : String} (hkey : key ∈ command.toList)
      (hbinding : keytable.lookup key = some (.changeType target))
      (hkind : ModuleKind.ofName? target = none)
      : CommandFault keytable props command (.action (.kind (.unknown (ModuleKind.normalize target))))
  | invalidLiteral {prop : Property} {value : String} (hprop : props.lookup prop.name = some prop)
      (hvalue : value = command ∨ ∃ key, command.toList = key :: value.toList)
      (hinvalid : prop.kind.read? value = none)
      : CommandFault keytable props command
          (.action (.property (.invalid prop.name value prop.kind)))

namespace Editor

variable {e : Editor} {command : String}

theorem read_of_interpret_error {error : CommandError} (h : e.interpret command = .error error)
    : RepeatExpression.read e.keytable e.maxRepeat command = .error error := by
  rcases e.interpret_cases command with ⟨prop, _, hvalue⟩ | ⟨key, value, prop, _, _, hvalue⟩ |
    hexpression
  · rw [hvalue] at h
    cases h
  · rw [hvalue] at h
    split at h <;> cases h
  · rw [hexpression] at h
    cases hread : RepeatExpression.read e.keytable e.maxRepeat command with
    | error refused =>
      rw [hread] at h
      cases h
      rfl
    | ok actions =>
      rw [hread] at h
      cases h

theorem actions_of_interpret {e' : Editor} {actions : List Action}
    (h : e.interpret command = .ok (.actions actions, e'))
    : (∃ prop value, actions = [.changeProperty [(prop.name, value)]] ∧
          (value = command ∨ ∃ key, command.toList = key :: value.toList) ∧
          (e.focus = some prop ∨ ∃ key, e.shortcuts.lookup key = some prop)) ∨
        RepeatExpression.read e.keytable e.maxRepeat command = .ok actions := by
  rcases e.interpret_cases command with ⟨prop, hfocus, hvalue⟩ |
    ⟨key, value, prop, hcommand, hkey, hvalue⟩ | hexpression
  · rw [hvalue] at h
    cases h
    exact .inl ⟨prop, command, rfl, .inl rfl, .inl hfocus⟩
  · rw [hvalue] at h
    split at h
    · cases h
    · cases h
      refine .inl ⟨prop, String.ofList value, rfl, .inr ⟨key, ?_⟩, .inr ⟨key, hkey⟩⟩
      rw [hcommand, String.toList_ofList]
  · rw [hexpression] at h
    cases hread : RepeatExpression.read e.keytable e.maxRepeat command with
    | error error =>
      rw [hread] at h
      cases h
    | ok read =>
      rw [hread] at h
      cases h
      exact .inr rfl

end Editor

theorem Keytable.mem_of_lookup {t : Keytable} {key : Char} {binding : Binding}
    (h : t.lookup key = some binding) : (key, binding) ∈ t.bindings := by
  obtain ⟨front, rest, hsplit, _⟩ := List.lookup_eq_some_iff.mp h
  rw [hsplit]
  simp

theorem Keytable.cases_of_resolve? {t : Keytable} {key : Char} {action : Action}
    (h : t.resolve? key = some action)
    : (∃ target, t.lookup key = some (.changeType target) ∧ action = .changeType target) ∨
        ∃ direction, action = .moveCursor direction := by
  obtain ⟨binding, hbinding, rfl⟩ := Option.map_eq_some_iff.mp h
  cases binding with
  | changeType target => exact .inl ⟨target, hbinding, rfl⟩
  | moveCursor direction => exact .inr ⟨direction, rfl⟩

theorem Action.apply_changeType_eq_error_iff {target : String} {m : Module} {error : ActionError}
    : (Action.changeType target).apply m = .error error ↔
        ModuleKind.ofName? target = none ∧
          error = .kind (.unknown (ModuleKind.normalize target)) := by
  rw [apply, Module.ofName]
  cases ModuleKind.ofName? target <;> simp [eq_comm]

theorem Action.apply_changeProperty_eq_error_iff {m : Module} {prop : Property} {value : String}
    {error : ActionError} (hprop : m.properties.lookup prop.name = some prop)
    : (Action.changeProperty [(prop.name, value)]).apply m = .error error ↔
        prop.kind.read? value = none ∧
          error = .property (.invalid prop.name value prop.kind) := by
  have hvalidate : m.properties.validate [(prop.name, value)]
        =
      (m.properties.validateEntry (prop.name, value)).map fun entry => [entry] := by
    rw [PropertyMap.validate, List.mapM_cons]
    cases m.properties.validateEntry (prop.name, value) <;> rfl
  simp only [apply, Module.edit, hvalidate, PropertyMap.validateEntry, hprop]
  cases prop.kind.read? value <;> simp [Except.map, eq_comm]

/--
On the board a batch fails because of a module, and not because of its cursor.
-/
theorem Batch.failure_of_run {s s' : Batch} (hcursor : s.cursor ∈ s.board.size)
    {actions : List Action} {error : ActionError} (h : s.run actions = (s', some error))
    : ∃ front action rest m, actions = front ++ action :: rest ∧ s.run front = (s', none) ∧
        action.scope = .cell ∧ s'.board.get? s'.cursor = some m ∧ action.apply m = .error error := by
  obtain ⟨front, action, rest, hactions, hfront, hrefused⟩ := exists_of_run_error h
  obtain ⟨hscope, happly⟩ := step_eq_error_iff.mp hrefused
  have hinside := cursor_run_mem hcursor front
  rw [hfront] at hinside
  obtain ⟨m, hm⟩ := Board.exists_get? hinside
  refine ⟨front, action, rest, m, hactions, hfront, hscope, hm, ?_⟩
  rw [Board.apply, hm] at happly
  dsimp only at happly
  split at happly
  · rename_i hfailed
    cases happly
    exact hfailed
  · cases happly

namespace Engine

variable {e : Engine} {command : String}

theorem failure_of_perform (hcursor : e.editor.cursor ∈ e.board.size) {actions : List Action}
    {error : ActionError} (h : (e.perform actions).1 = .error error)
    : ∃ front action rest s m, actions = front ++ action :: rest ∧
        e.startBatch.run front = (s, none) ∧ action.scope = .cell ∧
        s.board.get? s.cursor = some m ∧ action.apply m = .error error := by
  rcases perform_cases e actions with ⟨s, _, hperform⟩ | ⟨s, refused, hrun, hperform⟩
  · rw [hperform] at h
    cases h
  · rw [hperform] at h
    cases h
    obtain ⟨front, action, rest, m, hactions, hfront, hscope, hm, hfailed⟩ :=
      Batch.failure_of_run (s := e.startBatch) hcursor hrun
    exact ⟨front, action, rest, s, m, hactions, hfront, hscope, hm, hfailed⟩

theorem fault_of_change {settings : Settings} (h : e.Coherent settings) {editor : Editor}
    (heditor : editor.cursor = e.editor.cursor) {prop : Property} {value : String}
    (hvalue : value = command ∨ ∃ key, command.toList = key :: value.toList)
    (hprop : e.editor.focus = some prop ∨ ∃ key, e.editor.shortcuts.lookup key = some prop)
    {error : ActionError}
    (hfailed : ((e.interpreted editor).perform [.changeProperty [(prop.name, value)]]).1
        =
      .error error)
    : CommandFault settings.keytable (e.board.propertiesAt e.editor.cursor) command
        (.action error) := by
  have hcursor : editor.cursor ∈ e.board.size := heditor ▸ h.cursor
  obtain ⟨front, action, rest, s, m, hactions, hfront, _, hm, happly⟩ :=
    failure_of_perform (e := e.interpreted editor) hcursor hfailed
  -- the batch has one action, so nothing happened in front of the one that failed
  cases front with
  | cons first front => simp at hactions
  | nil =>
    cases hactions
    cases hfront
    have hprops : e.board.propertiesAt e.editor.cursor = m.properties := by
      rw [Board.propertiesAt, ← heditor]
      change e.board.get? editor.cursor = some m at hm
      rw [hm]
    -- the editor knows only properties of the module under the cursor, so the name is not at fault
    have hlookup := h.lookup_of_shortcut hprop
    rw [hprops] at hlookup ⊢
    obtain ⟨hinvalid, rfl⟩ := (Action.apply_changeProperty_eq_error_iff hlookup).mp happly
    exact .invalidLiteral hlookup hvalue hinvalid

theorem fault_of_expression {settings : Settings} (h : e.Coherent settings) {editor : Editor}
    (heditor : editor.cursor = e.editor.cursor) {actions : List Action}
    (hread : RepeatExpression.read e.editor.keytable e.editor.maxRepeat command = .ok actions)
    {error : ActionError} (hfailed : ((e.interpreted editor).perform actions).1 = .error error)
    : CommandFault settings.keytable (e.board.propertiesAt e.editor.cursor) command
        (.action error) := by
  have hcursor : editor.cursor ∈ e.board.size := heditor ▸ h.cursor
  obtain ⟨front, action, rest, s, m, hactions, _, hscope, _, happly⟩ :=
    failure_of_perform (e := e.interpreted editor) hcursor hfailed
  have haction : action ∈ actions := by simp [hactions]
  obtain ⟨key, hkey, hresolve⟩ := RepeatExpression.exists_key_of_read hread haction
  rcases Keytable.cases_of_resolve? hresolve with ⟨target, hbinding, rfl⟩ | ⟨direction, rfl⟩
  · obtain ⟨hkind, rfl⟩ := Action.apply_changeType_eq_error_iff.mp happly
    exact .unknownKind hkey (h.keytable ▸ hbinding) hkind
  · cases hscope

theorem Coherent.fault_of_submit {settings : Settings} (h : e.Coherent settings)
    {error : EngineError} (hrefused : (e.submit command).1 = .error error)
    : CommandFault settings.keytable (e.board.propertiesAt e.editor.cursor) command error := by
  rcases e.submit_cases command with ⟨refused, hinterpret, hsubmit⟩ |
    ⟨actions, editor, hinterpret, hsubmit⟩ | ⟨prop, editor, _, hsubmit⟩
  · rw [hsubmit] at hrefused
    cases hrefused
    have hread := Editor.read_of_interpret_error hinterpret
    obtain ⟨c, hc, rfl⟩ := RepeatExpression.read_eq_error_iff.mp hread
    obtain ⟨hmem, hdigit, hunbound⟩ := RepeatExpression.mem_of_firstUnbound? hc
    exact .unboundCharacter hmem hdigit (h.keytable ▸ hunbound)
  · rw [hsubmit] at hrefused
    have heditor : editor.cursor = e.editor.cursor := by
      obtain ⟨focus, rfl⟩ := Editor.exists_focus_of_interpret hinterpret
      rfl
    cases hfailed : ((e.interpreted editor).perform actions).1 with
    | ok _ =>
      rw [hfailed] at hrefused
      cases hrefused
    | error refused =>
      rw [hfailed] at hrefused
      cases hrefused
      rcases Editor.actions_of_interpret hinterpret with ⟨prop, value, rfl, hvalue, hprop⟩ | hread
      · exact fault_of_change h heditor hvalue hprop hfailed
      · exact fault_of_expression h heditor hread hfailed
  · rw [hsubmit] at hrefused
    cases hrefused

/--
Whatever was done to an engine, the error of a command that it refuses is about a character of the command
that is not bound, a key of it that is bound to no kind, or the new value that it gives to a property of
the module under the cursor. If all bindings are to kinds, it is not about a kind.
-/
theorem refused_for_command (size : Size) (hwidth : 0 < size.width) (hheight : 0 < size.height)
    (step : Duration) (settings : Settings) (ops : List Operation) (command : String)
    {error : EngineError}
    (hrefused : (((new size step settings).run ops).submit command).1 = .error error)
    : let e := (new size step settings).run ops
      (∃ m, e.board.get? e.editor.cursor = some m ∧
        CommandFault settings.keytable m.properties command error) ∧
      (∀ name, error ≠ .action (.property (.unknown name))) ∧
      (∀ p, error ≠ .action (.outOfBounds p)) ∧
      (∀ action, error ≠ .action (.wrongScope action)) ∧
      (∀ target current, error ≠ .action (.typeConflict target current)) ∧
      error ≠ .action .propertyConflict ∧
      ((∀ entry ∈ settings.keytable.bindings, entry.2.namesKind = true) →
        ∀ unknown, error ≠ .action (.kind unknown)) := by
  intro e
  have h : e.Coherent settings := (Coherent.new hwidth hheight step settings).run ops
  have hfault := h.fault_of_submit hrefused
  obtain ⟨m, hm⟩ := Board.exists_get? h.cursor
  rw [Board.propertiesAt, hm] at hfault
  refine ⟨⟨m, hm, hfault⟩, ?_⟩
  -- none of the three faults has an error of another form
  cases hfault with
  | unboundCharacter => simp
  | invalidLiteral => simp
  | unknownKind hkey hbinding hkind =>
    refine ⟨by simp, by simp, by simp, by simp, by simp, ?_⟩
    intro hnamed
    have := hnamed _ (Keytable.mem_of_lookup hbinding)
    simp [Binding.namesKind, hkind] at this

theorem refused_for_command_literal
    : let e := (new ⟨2, 1⟩ .zero .default).run
        [.submit "s", .perform [.moveCursor .right, .changeType "mixer"], .tick, .submit "i"]
      (e.submit "x").1 = .error (.action (.property (.invalid "interval" "x" .int))) ∧
      (∃ m, e.board.get? e.editor.cursor = some m ∧
        CommandFault Settings.default.keytable m.properties "x"
          (.action (.property (.invalid "interval" "x" .int)))) ∧
      ∀ unknown, EngineError.action (.property (.invalid "interval" "x" .int)) ≠
        .action (.kind unknown) := by
  intro e
  have hrefused : (e.submit "x").1 = .error (.action (.property (.invalid "interval" "x" .int))) := by
    decide +kernel
  obtain ⟨hfault, _, _, _, _, _, hkind⟩ := refused_for_command ⟨2, 1⟩ (by decide) (by decide) .zero
    .default [.submit "s", .perform [.moveCursor .right, .changeType "mixer"], .tick, .submit "i"] "x"
    hrefused
  exact ⟨hrefused, hfault, hkind (by decide)⟩

end Engine

end SignalBoard

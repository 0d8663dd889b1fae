import SignalBoard.Editor
import SignalBoard.Proofs.RepeatExpression.Reading
import SignalBoard.Settings.Reader

/-!
This module shows that the keys of the keytable are commands, whatever shortcuts there are beside them:
`Editor.interpret_bound_key`. Digits are the exception, `Editor.bound_digit_is_no_command`: they can be
bound, but always belong to a number.
-/

namespace SignalBoard

namespace RepeatExpression

variable {keytable : Keytable} {limit : Nat}

theorem read_singleton_key {key : Char} {action : Action} (hdigit : key.isDigit = false)
    (hkey : keytable.resolve? key = some action)
    : read keytable limit (String.singleton key) = .ok [action] := by
  have hfeed : State.start.feedAll keytable limit [key] = .ok { State.start with staged := [action] } := by
    rw [State.feedAll_cons_of_ok (State.feed_bound hdigit hkey .start)]
    rfl
  rw [State.feedAll] at hfeed
  rw [read, String.toList_singleton, hfeed]
  rfl

theorem read_singleton_digit {digit : Char} (hdigit : digit.isDigit = true)
    : read keytable limit (String.singleton digit) = .ok [] := by
  have hfeed : ∃ s, State.start.feedAll keytable limit [digit] = .ok s ∧ s.staged = [] ∧ s.output = [] := by
    rw [State.feedAll_cons_of_ok (State.feed_digit hdigit .start)]
    exact ⟨_, rfl, rfl, rfl⟩
  obtain ⟨s, hs, hstaged, houtput⟩ := hfeed
  rw [State.feedAll] at hs
  rw [read, String.toList_singleton, hs]
  simp [State.flush, hstaged, houtput]

end RepeatExpression

namespace Editor

theorem lookup_shortcutsFor_of_bound {keytable : Keytable} {key : Char}
    (hkey : keytable.contains key = true) (props : PropertyMap)
    : (shortcutsFor keytable props).lookup key = none := by
  rw [List.lookup_eq_none_iff]
  rintro ⟨letter, prop⟩ hmem
  have hfree := (List.mem_filter.mp (List.of_mem_zip hmem).1).2
  simp only [bne_iff_ne, ne_eq]
  rintro rfl
  simp [hkey] at hfree

theorem interpret_of_lookup_eq_none {e : Editor} (hfocus : e.focus = none) {command : String} {key : Char}
    {rest : List Char} (hcommand : command.toList = key :: rest) (hkey : e.shortcuts.lookup key = none)
    : e.interpret command
        =
      (RepeatExpression.read e.keytable e.maxRepeat command).map (.actions ·, e) := by
  rw [interpret, hfocus]
  dsimp only
  rw [interpretUnfocused, hcommand]
  dsimp only
  rw [hkey]
  cases RepeatExpression.read e.keytable e.maxRepeat command <;> rfl

/--
When no property is in focus, a bound key that is no digit is a command by itself, which amounts to the
action of the key. No property gets a bound key as its shortcut. A digit by itself amounts to nothing, also
if it is bound.
-/
theorem interpret_bound_key (e : Editor) (props : PropertyMap) (hfocus : e.focus = none) {key : Char}
    {action : Action} (hkey : e.keytable.resolve? key = some action)
    : let e := e.updateShortcuts props
      e.focus = none ∧ e.shortcuts.lookup key = none ∧
      (key.isDigit = false → e.interpret (String.singleton key) = .ok (.actions [action], e)) ∧
      (key.isDigit = true → e.interpret (String.singleton key) = .ok (.actions [], e)) := by
  intro e
  replace hfocus : e.focus = none := hfocus
  replace hkey : e.keytable.resolve? key = some action := hkey
  have hshortcut : e.shortcuts.lookup key = none :=
    lookup_shortcutsFor_of_bound (Keytable.contains_iff_resolve?.mpr ⟨action, hkey⟩) props
  refine ⟨hfocus, hshortcut, ?_, ?_⟩
  · intro hdigit
    rw [interpret_of_lookup_eq_none hfocus (String.toList_singleton key) hshortcut,
      RepeatExpression.read_singleton_key hdigit hkey]
    rfl
  · intro hdigit
    rw [interpret_of_lookup_eq_none hfocus (String.toList_singleton key) hshortcut,
      RepeatExpression.read_singleton_digit hdigit]
    rfl

theorem interpret_bound_key_letter
    : let keytable := Keytable.default.insert 'a' (.changeType "emitter")
      let props := (Module.new .emitter .origin).properties
      let e := (new keytable 1).updateShortcuts props
      keytable.resolve? 'a' = some (.changeType "emitter") ∧
      e.shortcuts.lookup 'b' = props.head? ∧ e.shortcuts.lookup 'a' = none ∧
      e.interpret (String.singleton 'a') = .ok (.actions [.changeType "emitter"], e) ∧ e.focus = none := by
  intro keytable props e
  have hkey : keytable.resolve? 'a' = some (.changeType "emitter") := by decide +kernel
  obtain ⟨hfocus, hshortcut, hcommand, _⟩ := interpret_bound_key (new keytable 1) props rfl hkey
  exact ⟨hkey, by decide +kernel, hshortcut, hcommand (by decide), hfocus⟩

/--
A settings file can bind a digit, but then it is not a command by itself.
-/
theorem bound_digit_is_no_command
    : let text := "\x7b\"keytable\": \x7b\"5\": \x7b\"move_cursor\": \"left\"\x7d\x7d\x7d"
      ∃ settings, Settings.read? text = some settings ∧ 1 ≤ settings.maxRepeat ∧
        settings.keytable.resolve? '5' = some (.moveCursor .left) ∧
        let e := (new settings.keytable settings.maxRepeat).updateShortcuts []
        e.focus = none ∧ e.interpret (String.singleton '5') = .ok (.actions [], e) ∧
        e.interpret (String.singleton '5') ≠ .ok (.actions [.moveCursor .left], e) := by
  intro text
  refine ⟨⟨.ofList [('5', .moveCursor .left)], 1000, 256⟩, by decide +kernel, by decide, by decide, ?_⟩
  intro e
  have hdigit : e.interpret (String.singleton '5') = .ok (.actions [], e) := by
    rw [interpret_of_lookup_eq_none rfl (String.toList_singleton '5') rfl,
      RepeatExpression.read_singleton_digit (by decide)]
    rfl
  refine ⟨rfl, hdigit, ?_⟩
  rw [hdigit]
  nofun

end Editor

end SignalBoard

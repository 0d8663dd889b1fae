import SignalBoard.Proofs.Editor.Keys
import SignalBoard.Proofs.Engine.Perform

/-!
This module shows that the editor takes every command in exactly one of four ways, and what comes of each:
`Editor.interpret_in_mode`. Which way it is depends on the focus, and on the number that the first
character of the command has among the letters that the keytable leaves free.
-/

namespace SignalBoard

section Free

variable {α β : Type} [DecidableEq α]

theorem getElem?_filter_eq_some_iff {as : List α} (h : as.Nodup) {p : α → Bool} {k : Nat} {a : α}
    : (as.filter p)[k]? = some a ↔
        a ∈ as ∧ p a = true ∧ (as.takeWhile (· ≠ a)).countP p = k := by
  induction as generalizing k with
  | nil => simp
  | cons b as ih =>
    obtain ⟨hb, has⟩ := List.nodup_cons.mp h
    by_cases hab : a = b
    · subst hab
      -- the element does not come again behind its only place
      have hrest : ∀ k : Nat, (as.filter p)[k]? ≠ some a := by
        intro k hk
        exact hb (List.mem_filter.mp (List.mem_of_getElem? hk)).1
      cases hp : p a with
      | false => simp [hp, hrest]
      | true => cases k <;> simp [hp, hrest]
    · have hba : b ≠ a := fun h => hab h.symm
      cases hp : p b with
      | false => simp [hp, hab, hba, ih has]
      | true => cases k <;> simp [hp, hab, hba, ih has]

theorem lookup_zip_eq_some_iff {keys : List α} (h : keys.Nodup) {values : List β} {key : α} {value : β}
    : (keys.zip values).lookup key = some value ↔
        ∃ k : Nat, keys[k]? = some key ∧ values[k]? = some value := by
  induction keys generalizing values with
  | nil => simp
  | cons first keys ih =>
    obtain ⟨hfirst, hkeys⟩ := List.nodup_cons.mp h
    cases values with
    | nil => simp
    | cons front values =>
      rw [List.zip_cons_cons, List.lookup_cons, ← Nat.or_exists_add_one]
      by_cases hkey : key = first
      · subst hkey
        have hrest : ∀ k : Nat, keys[k]? ≠ some key := fun k hk => hfirst (List.mem_of_getElem? hk)
        simp [hrest]
      · have hne : first ≠ key := fun h => hkey h.symm
        rw [beq_eq_false_iff_ne.mpr hkey]
        simp [hne, ih hkeys]

end Free

/--
The keys that can become shortcuts: the small letters, and then the capital ones.
-/
def alphabet : List Char :=
  "abcdefghijklmnopqrstuvwxyzABCDEFGHIJKLMNOPQRSTUVWXYZ".toList

/--
Whether `key` is the free letter with the number `k`, counted from zero: the keytable does not bind it,
and leaves `k` of the letters in front of it free.
-/
structure Keytable.FreeLetter (t : Keytable) (k : Nat) (key : Char) : Prop where
  letter : key ∈ alphabet
  unbound : t.contains key = false
  number : (alphabet.takeWhile (· ≠ key)).countP (fun c => !t.contains c) = k

/--
Whether the first character of a command is the shortcut of `prop`, with `rest` behind it: it is the free
letter with the number that the property has in the map.
-/
def PropertyMap.Selects (props : PropertyMap) (keytable : Keytable) (command : String) (prop : Property)
    (rest : List Char) : Prop :=
  ∃ key k, command.toList = key :: rest ∧ keytable.FreeLetter k key ∧ props[k]? = some prop

/--
The ways in which a command can be taken.
-/
inductive Mode where
  /-- The whole command is the new value of the property in focus. -/
  | value (prop : Property)
  /-- The command selects a property. -/
  | select (prop : Property)
  /-- The command selects a property, and the rest of it is the new value. -/
  | assign (prop : Property) (literal : String)
  /-- The command is a repeat expression. -/
  | expression

namespace Mode

/--
Whether a command is to be taken in a mode, where the shortcuts were made for the properties `props`.
-/
inductive Applies (keytable : Keytable) (props : PropertyMap) (focus : Option Property)
    (command : String) : Mode → Prop where
  | value {prop : Property} (hfocus : focus = some prop)
    : Applies keytable props focus command (.value prop)
  | select {prop : Property} (hfocus : focus = none) (hkey : props.Selects keytable command prop [])
    : Applies keytable props focus command (.select prop)
  | assign {prop : Property} {rest : List Char} (hfocus : focus = none)
    (hkey : props.Selects keytable command prop rest) (hrest : rest ≠ [])
    : Applies keytable props focus command (.assign prop (String.ofList rest))
  | expression (hfocus : focus = none) (hkey : ∀ prop rest, ¬ props.Selects keytable command prop rest)
    : Applies keytable props focus command .expression

/--
What a command amounts to in a mode, and what becomes of the editor.
-/
def result (e : Editor) (command : String) : Mode → Except CommandError (Outcome × Editor)
  | .value prop => .ok (.actions [.changeProperty [(prop.name, command)]], { e with focus := none })
  | .select prop => .ok (.focused prop, { e with focus := some prop })
  | .assign prop literal => .ok (.actions [.changeProperty [(prop.name, literal)]], e)
  | .expression => (RepeatExpression.read e.keytable e.maxRepeat command).map fun actions =>
    (.actions actions, e)

end Mode

namespace PropertyMap.Selects

variable {props : PropertyMap} {keytable : Keytable} {command : String} {prop other : Property}
  {rest behind : List Char}

theorem unique (h : props.Selects keytable command prop rest)
    (h' : props.Selects keytable command other behind) : other = prop ∧ behind = rest := by
  obtain ⟨key, k, hcommand, hkey, hprop⟩ := h
  obtain ⟨key', k', hcommand', hkey', hprop'⟩ := h'
  rw [hcommand] at hcommand'
  cases hcommand'
  have hnumber : k = k' := hkey.number.symm.trans hkey'.number
  rw [← hnumber, hprop] at hprop'
  cases hprop'
  exact ⟨rfl, rfl⟩

end PropertyMap.Selects

namespace Mode

variable {keytable : Keytable} {props : PropertyMap} {command : String}

theorem applies_focused_iff {prop : Property} {mode : Mode}
    : mode.Applies keytable props (some prop) command ↔ mode = .value prop := by
  constructor
  · intro h
    cases h with
    | value hfocus => rw [Option.some.inj hfocus]
    | select hfocus => cases hfocus
    | assign hfocus => cases hfocus
    | expression hfocus => cases hfocus
  · rintro rfl
    exact .value rfl

theorem applies_selecting_iff {prop : Property} {rest : List Char}
    (h : props.Selects keytable command prop rest) {mode : Mode}
    : mode.Applies keytable props none command ↔
        mode = if rest.isEmpty then .select prop else .assign prop (String.ofList rest) := by
  constructor
  · intro hmode
    cases hmode with
    | value hfocus => cases hfocus
    | select _ hkey =>
      obtain ⟨rfl, rfl⟩ := h.unique hkey
      rfl
    | assign _ hkey hrest =>
      obtain ⟨rfl, rfl⟩ := h.unique hkey
      rw [if_neg (by simpa using hrest)]
    | expression _ hkey => exact absurd h (hkey prop rest)
  · rintro rfl
    cases rest with
    | nil => exact .select rfl h
    | cons c rest => exact .assign rfl h (List.cons_ne_nil c rest)

theorem applies_expression_iff (h : ∀ prop rest, ¬ props.Selects keytable command prop rest) {mode : Mode}
    : mode.Applies keytable props none command ↔ mode = .expression := by
  constructor
  · intro hmode
    cases hmode with
    | value hfocus => cases hfocus
    | select _ hkey => exact absurd hkey (h _ _)
    | assign _ hkey => exact absurd hkey (h _ _)
    | expression => rfl
  · rintro rfl
    exact .expression rfl h

end Mode

namespace Editor

theorem letters_eq_alphabet : letters = alphabet := by
  decide +kernel

theorem nodup_letters : letters.Nodup := by
  decide +kernel

theorem lookup_shortcutsFor_eq_some_iff {keytable : Keytable} {props : PropertyMap} {key : Char}
    {prop : Property}
    : (shortcutsFor keytable props).lookup key = some prop ↔
        ∃ k, keytable.FreeLetter k key ∧ props[k]? = some prop := by
  rw [shortcutsFor, lookup_zip_eq_some_iff (nodup_letters.filter _)]
  have hkey : ∀ k : Nat, (letters.filter fun c => !keytable.contains c)[k]? = some key ↔
      keytable.FreeLetter k key := by
    intro k
    rw [getElem?_filter_eq_some_iff nodup_letters, letters_eq_alphabet]
    simp only [Bool.not_eq_true']
    constructor
    · rintro ⟨hletter, hunbound, hnumber⟩
      exact ⟨hletter, hunbound, hnumber⟩
    · intro h
      exact ⟨h.letter, h.unbound, h.number⟩
  simp only [hkey]

variable {e : Editor} {command : String}

theorem interpret_of_focus {prop : Property} (hfocus : e.focus = some prop)
    : e.interpret command = (Mode.value prop).result e command := by
  rw [interpret, hfocus]
  rfl

theorem interpret_of_shortcut {key : Char} {rest : List Char} {prop : Property} (hfocus : e.focus = none)
    (hcommand : command.toList = key :: rest) (hkey : e.shortcuts.lookup key = some prop)
    : e.interpret command
        =
      (if rest.isEmpty then Mode.select prop else .assign prop (String.ofList rest)).result e command := by
  rw [interpret, hfocus]
  dsimp only
  rw [interpretUnfocused, hcommand]
  dsimp only
  rw [hkey]
  dsimp only
  split <;> rfl

theorem interpret_of_expression (hfocus : e.focus = none)
    (hkey : ∀ key rest, command.toList = key :: rest → e.shortcuts.lookup key = none)
    : e.interpret command = Mode.expression.result e command := by
  cases hcommand : command.toList with
  | nil =>
    simp only [interpret, hfocus, interpretUnfocused, hcommand, Mode.result]
    cases RepeatExpression.read e.keytable e.maxRepeat command <;> rfl
  | cons key rest => exact interpret_of_lookup_eq_none hfocus hcommand (hkey key rest hcommand)

/--
A command is taken in exactly one mode, whatever the keytable binds, whatever properties the shortcuts were
made for, and whatever is in focus. The mode says what the command amounts to. The focus may change, but the
cursor, the command line, the keytable and the shortcuts do not.
-/
theorem interpret_in_mode (e : Editor) (props : PropertyMap) (command : String)
    : let e := e.updateShortcuts props
      ∃ mode : Mode,
        (∀ other : Mode, other.Applies e.keytable props e.focus command ↔ other = mode) ∧
        e.interpret command = mode.result e command ∧
        ∀ outcome e', e.interpret command = .ok (outcome, e') →
          e'.cursor = e.cursor ∧ e'.commandLine = e.commandLine ∧ e'.keytable = e.keytable ∧
          e'.shortcuts = e.shortcuts := by
  intro e
  have hkept : ∀ outcome e', e.interpret command = .ok (outcome, e') →
      e'.cursor = e.cursor ∧ e'.commandLine = e.commandLine ∧ e'.keytable = e.keytable ∧
      e'.shortcuts = e.shortcuts := by
    intro outcome e' hinterpret
    obtain ⟨focus, rfl⟩ := exists_focus_of_interpret hinterpret
    exact ⟨rfl, rfl, rfl, rfl⟩
  have hlookup : ∀ key prop, e.shortcuts.lookup key = some prop ↔
      ∃ k, e.keytable.FreeLetter k key ∧ props[k]? = some prop :=
    fun key prop => lookup_shortcutsFor_eq_some_iff
  cases hfocus : e.focus with
  | some prop => exact ⟨_, fun _ => Mode.applies_focused_iff, interpret_of_focus hfocus, hkept⟩
  | none =>
    by_cases hkey : ∃ prop rest, props.Selects e.keytable command prop rest
    · obtain ⟨prop, rest, hselects⟩ := hkey
      refine ⟨_, fun _ => Mode.applies_selecting_iff hselects, ?_, hkept⟩
      obtain ⟨key, k, hcommand, hfree, hprop⟩ := hselects
      exact interpret_of_shortcut hfocus hcommand ((hlookup key prop).mpr ⟨k, hfree, hprop⟩)
    · have hnone : ∀ prop rest, ¬ props.Selects e.keytable command prop rest :=
        fun prop rest hselects => hkey ⟨prop, rest, hselects⟩
      refine ⟨_, fun _ => Mode.applies_expression_iff hnone, ?_, hkept⟩
      apply interpret_of_expression hfocus
      intro key rest hcommand
      cases hshortcut : e.shortcuts.lookup key with
      | none => rfl
      | some prop =>
        obtain ⟨k, hfree, hprop⟩ := (hlookup key prop).mp hshortcut
        exact absurd ⟨key, k, hcommand, hfree, hprop⟩ (hnone prop rest)

end Editor

end SignalBoard

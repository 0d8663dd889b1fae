import SignalBoard.Editor
import SignalBoard.Proofs.Module.Snapshot

/-!
This module shows what the help of an editor consists of: `Editor.help_eq_filterMap`. Properties get their
lines in their order, until there are no free letters left: `Editor.length_help`.
-/

namespace SignalBoard

/--
When keys are given out to properties from front to back, the key of a property is found under its name.
-/
theorem zip_eq_filterMap {keys : List Char} {props : List Property} (h : (props.map Property.name).Nodup)
    : keys.zip props
        =
      props.filterMap fun prop =>
        ((keys.zip props).find? fun entry => entry.2.name = prop.name).map fun entry =>
          (entry.1, prop) := by
  induction keys generalizing props with
  | nil => simp
  | cons key keys ih =>
    cases props with
    | nil => rfl
    | cons prop props =>
      rw [List.map_cons, List.nodup_cons] at h
      have hfirst : ((key, prop) :: keys.zip props).find? (fun entry => entry.2.name = prop.name)
          =
        some (key, prop) := by simp
      have hrest : ∀ other ∈ props,
          ((key, prop) :: keys.zip props).find? (fun entry => entry.2.name = other.name)
            =
          (keys.zip props).find? fun entry => entry.2.name = other.name := by
        intro other hother
        apply List.find?_cons_of_neg
        rw [decide_eq_true_eq]
        intro hname
        exact h.1 (hname ▸ List.mem_map_of_mem hother)
      rw [List.zip_cons_cons, List.filterMap_cons, hfirst, Option.map_some]
      apply congrArg (List.cons (key, prop))
      rw [List.filterMap_congr fun other hother => congrArg (Option.map _) (hrest other hother)]
      exact ih h.2

namespace Editor

variable {e : Editor} {keytable : Keytable} {props : PropertyMap}

/--
The line of help for a property that has a shortcut.
-/
def helpLine (key : Char) (prop : Property) : String :=
  s!"{key} - {prop.label} ({prop.kind.name}: {prop.value})"

/--
There is a line of help for every property that has a shortcut, in the order of the properties.
-/
theorem help_eq_filterMap (hshortcuts : e.shortcuts = shortcutsFor keytable props)
    (hnames : (props.map Property.name).Nodup)
    : e.help
        =
      props.filterMap fun prop => (e.shortcutOf? prop.name).map fun key => helpLine key prop := by
  have hhelp : e.help = e.shortcuts.map fun entry => helpLine entry.1 entry.2 := rfl
  rw [hhelp, hshortcuts, shortcutsFor, zip_eq_filterMap hnames, List.map_filterMap]
  apply List.filterMap_congr
  intro prop _
  rw [shortcutOf?, hshortcuts, shortcutsFor, Option.map_map, Option.map_map]
  rfl

theorem length_help (hshortcuts : e.shortcuts = shortcutsFor keytable props)
    : e.help.length = min (letters.filter fun key => !keytable.contains key).length props.length := by
  rw [help, List.length_map, hshortcuts, shortcutsFor, List.length_zip]

theorem mem_letters_of_shortcutOf? (hshortcuts : e.shortcuts = shortcutsFor keytable props)
    {name : String} {key : Char} (h : e.shortcutOf? name = some key) : key ∈ letters := by
  rw [shortcutOf?, hshortcuts, Option.map_eq_some_iff] at h
  obtain ⟨⟨_, prop⟩, hfound, rfl⟩ := h
  exact List.mem_of_mem_filter (List.of_mem_zip (List.mem_of_find?_eq_some hfound)).1

end Editor

end SignalBoard

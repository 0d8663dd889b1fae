import SignalBoard.Action
import SignalBoard.Proofs.Module.Snapshot

/-!
This module shows that the undo of an action leads back: `Undo.apply_of_apply`. It also follows the
position that is stored in a module through actions and undos.
-/

namespace SignalBoard

namespace Action

theorem cases_of_apply {action : Action} {m r : Module} {undo : Undo}
    (h : action.apply m = .ok (r, undo))
    : (∃ target kind, action = .changeType target ∧ ModuleKind.ofName? target = some kind ∧
          r = .new kind m.position ∧ undo = .restoreModule target m) ∨
        (∃ changes, action = .changeProperty changes ∧ m.edit changes = .ok r ∧
          undo = .restoreProperties m.properties r.properties) := by
  cases action with
  | changeType target =>
    left
    rw [apply, Module.ofName] at h
    cases hkind : ModuleKind.ofName? target with
    | none =>
      rw [hkind] at h
      cases h
    | some kind =>
      rw [hkind] at h
      cases h
      exact ⟨target, kind, rfl, hkind, rfl, rfl⟩
  | changeProperty changes =>
    right
    simp only [apply] at h
    cases hedit : m.edit changes with
    | error error =>
      rw [hedit] at h
      cases h
    | ok edited =>
      rw [hedit] at h
      cases h
      exact ⟨changes, rfl, hedit, rfl⟩
  | moveCursor direction => cases h

theorem position_of_apply {action : Action} {m r : Module} {undo : Undo}
    (h : action.apply m = .ok (r, undo)) : r.position = m.position := by
  rcases cases_of_apply h with ⟨_, _, _, _, rfl, _⟩ | ⟨_, _, hedit, _⟩
  · rfl
  · exact (Module.sameOutsideSlots_of_edit hedit).position

end Action

namespace Undo

/--
The undo of an action, applied to what the action put in place of `m`, gives back `m`.
-/
theorem apply_of_apply {action : Action} {m r : Module} {undo : Undo}
    (h : action.apply m = .ok (r, undo)) : undo.apply r = .ok m := by
  rcases Action.cases_of_apply h with ⟨target, kind, _, hkind, rfl, rfl⟩ | ⟨_, _, hedit, rfl⟩
  · have hname : (Module.new kind m.position).name = ModuleKind.normalize target := by
      rw [Module.name, Module.kind_new, ModuleKind.ofName?_eq_some_iff.mp hkind]
    rw [apply, if_pos hname]
  · rw [apply, if_pos rfl, Module.edit_back hedit]
    rfl

/--
Whether a module that the undo puts back is stored with a position of which `P` holds. Writing
properties puts back no module.
-/
def PutsAt (P : Position → Prop) : Undo → Prop
  | .restoreModule _ replaced => P replaced.position
  | .restoreProperties _ _ => True

theorem putsAt_of_apply {P : Position → Prop} {action : Action} {m r : Module} {undo : Undo}
    (h : action.apply m = .ok (r, undo)) (hm : P m.position) : undo.PutsAt P := by
  rcases Action.cases_of_apply h with ⟨_, _, _, _, _, rfl⟩ | ⟨_, _, _, rfl⟩
  · exact hm
  · trivial

theorem position_of_apply {P : Position → Prop} {undo : Undo} {m r : Module}
    (h : undo.apply m = .ok r) (hundo : undo.PutsAt P) (hm : P m.position) : P r.position := by
  cases undo with
  | restoreModule target replaced =>
    simp only [apply] at h
    split at h
    · cases h
      exact hundo
    · cases h
  | restoreProperties before after =>
    simp only [apply] at h
    split at h
    · cases hedit : m.edit before.asChanges with
      | error error =>
        rw [hedit] at h
        cases h
      | ok edited =>
        rw [hedit] at h
        cases h
        rwa [(Module.sameOutsideSlots_of_edit hedit).position]
    · cases h

end Undo

end SignalBoard

import SignalBoard.Board

/-!
This module describes the operations of the board through its views: the module at each position, the
active positions and the pulses. All changes of modules go through `Board.install`, which changes the
module at one cell.
-/

namespace SignalBoard

namespace Board

@[simp]
theorem size_new (size : Size) : (new size).size = size := rfl

theorem get?_new (size : Size) (p : Position)
    : (new size).get? p = if p ∈ size then some (.new .empty p) else none := by
  apply Grid.get?_ofFn

theorem get?_eq_none_iff {b : Board} {p : Position} : b.get? p = none ↔ p ∉ b.size := by
  apply Grid.get?_eq_none_iff

theorem exists_get? {b : Board} {p : Position} (h : p ∈ b.size) : ∃ m, b.get? p = some m := by
  cases hm : b.get? p with
  | none => exact absurd h (get?_eq_none_iff.mp hm)
  | some m => exact ⟨m, rfl⟩

theorem mem_size_of_get? {b : Board} {p : Position} {m : Module} (h : b.get? p = some m)
    : p ∈ b.size := by
  apply Decidable.byContradiction
  intro hp
  rw [get?_eq_none_iff.mpr hp] at h
  cases h

@[simp]
theorem size_update (b : Board) (beat : Nat) : (b.update beat).size = b.size := rfl

@[simp]
theorem get?_update (b : Board) (beat : Nat) (p : Position)
    : (b.update beat).get? p = b.get? p := rfl

@[simp]
theorem active_update (b : Board) (beat : Nat) : (b.update beat).active = b.active := rfl

@[simp]
theorem size_addPulse (b : Board) (pulse : Pulse) : (b.addPulse pulse).size = b.size := by
  unfold addPulse
  split <;> rfl

@[simp]
theorem get?_addPulse (b : Board) (pulse : Pulse) (p : Position)
    : (b.addPulse pulse).get? p = b.get? p := by
  unfold addPulse
  split <;> rfl

@[simp]
theorem active_addPulse (b : Board) (pulse : Pulse) : (b.addPulse pulse).active = b.active := by
  unfold addPulse
  split <;> rfl

@[simp]
theorem size_install (b : Board) (p : Position) (m : Module) : (b.install p m).size = b.size := by
  unfold install
  split
  · rfl
  · exact Grid.size_of_replace (by assumption)

theorem get?_install {b : Board} {p : Position} (hp : p ∈ b.size) (m : Module) (q : Position)
    : (b.install p m).get? q = if q = p then some m else b.get? q := by
  unfold install
  split
  · rename_i error h
    exact absurd hp (Grid.replace_eq_error_iff.mp h)
  · rename_i h
    exact Grid.get?_replace h q

@[simp]
theorem pulses_install (b : Board) (p : Position) (m : Module)
    : (b.install p m).pulses = b.pulses := by
  unfold install
  split <;> rfl

theorem active_install {b : Board} {p : Position} {previous : Module}
    (hp : b.get? p = some previous) (m : Module)
    : (b.install p m).active =
        let active := if previous.isActive then b.active.erase p else b.active
        if m.isActive then active.insert p else active := by
  unfold install
  split
  · rename_i error h
    exact absurd (mem_size_of_get? hp) (Grid.replace_eq_error_iff.mp h)
  · rename_i old modules h
    have : b.get? p = some old := Grid.get?_of_replace h
    rw [hp] at this
    cases this
    rfl

/--
An action succeeds on the board exactly if it succeeds on the module at the position.
-/
theorem apply_eq_ok_iff {b b' : Board} {action : Action} {p : Position} {undo : Undo}
    : b.apply action p = .ok (b', undo) ↔
        ∃ m replacement, b.get? p = some m ∧ action.apply m = .ok (replacement, undo) ∧
          b' = b.install p replacement := by
  unfold apply
  constructor
  · intro h
    split at h
    · cases h
    · rename_i m hm
      split at h
      · cases h
      · rename_i replacement u ha
        cases h
        exact ⟨m, replacement, hm, ha, rfl⟩
  · rintro ⟨m, replacement, hm, ha, rfl⟩
    simp [hm, ha]

theorem revert_eq_ok_iff {b b' : Board} {undo : Undo} {p : Position}
    : b.revert undo p = .ok b' ↔
        ∃ m restored, b.get? p = some m ∧ undo.apply m = .ok restored ∧
          b' = b.install p restored := by
  unfold revert
  constructor
  · intro h
    split at h
    · cases h
    · rename_i m hm
      split at h
      · cases h
      · rename_i restored hu
        cases h
        exact ⟨m, restored, hm, hu, rfl⟩
  · rintro ⟨m, restored, hm, hu, rfl⟩
    simp [hm, hu]

theorem routePulse_congr {b c : Board} (h : c.modules = b.modules) : c.routePulse = b.routePulse := by
  funext pulse
  rw [routePulse, routePulse, get?, get?, size, size, h]

theorem emitAt_congr {b c : Board} (h : c.modules = b.modules) : c.emitAt = b.emitAt := by
  funext beat p
  rw [emitAt, emitAt, get?, get?, h]

/--
The board with other pulses in flight.
-/
def withPulses (b : Board) (pulses : OrderedSet Pulse) : Board :=
  { b with pulses := pulses }

section WithPulses

variable (b : Board) (pulses : OrderedSet Pulse)

@[simp]
theorem modules_withPulses : (b.withPulses pulses).modules = b.modules := rfl

@[simp]
theorem get?_withPulses (p : Position) : (b.withPulses pulses).get? p = b.get? p := rfl

theorem install_withPulses (p : Position) (m : Module)
    : (b.withPulses pulses).install p m = (b.install p m).withPulses pulses := by
  unfold install
  rw [modules_withPulses]
  cases b.modules.replace p m <;> rfl

theorem apply_withPulses (action : Action) (p : Position)
    : (b.withPulses pulses).apply action p
        =
      (b.apply action p).map fun (c, undo) => (c.withPulses pulses, undo) := by
  unfold apply
  rw [get?_withPulses]
  cases b.get? p with
  | none => rfl
  | some current =>
    dsimp only
    cases action.apply current with
    | error error => rfl
    | ok result => simp only [install_withPulses, Except.map]

theorem revert_withPulses (undo : Undo) (p : Position)
    : (b.withPulses pulses).revert undo p
        =
      (b.revert undo p).map fun c => c.withPulses pulses := by
  unfold revert
  rw [get?_withPulses]
  cases b.get? p with
  | none => rfl
  | some current =>
    dsimp only
    cases undo.apply current with
    | error error => rfl
    | ok restored => simp only [install_withPulses, Except.map]

end WithPulses

end Board

end SignalBoard

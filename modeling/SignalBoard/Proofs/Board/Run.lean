import SignalBoard.Proofs.Board.Invariants

/-!
This module contains runs of a board that starts out empty: any operations in any order, where undos
may be reverted as often as one likes and also at positions that they do not come from. The main
result is `Workbench.run_sound`.
-/

namespace SignalBoard

inductive BoardOperation where
  | addPulse (pulse : Pulse)
  | update (beat : Nat)
  | apply (action : Action) (p : Position)
  /-- Revert at `p` the undo with this number, counted from zero over the successful actions. -/
  | revert (number : Nat) (p : Position)
deriving DecidableEq

/--
A board and the undos that the actions on it have returned so far, the oldest of which comes first.
Each undo stands with the position of its action.
-/
structure Workbench where
  board : Board
  undos : List (Position × Undo)

namespace Workbench

def new (size : Size) : Workbench :=
  ⟨.new size, []⟩

/--
Carry out one operation. What the board refuses changes nothing.
-/
def step (s : Workbench) : BoardOperation → Workbench
  | .addPulse pulse => { s with board := s.board.addPulse pulse }
  | .update beat => { s with board := s.board.update beat }
  | .apply action p =>
    match s.board.apply action p with
    | .error _ => s
    | .ok (board, undo) => ⟨board, s.undos ++ [(p, undo)]⟩
  | .revert number p =>
    match s.undos[number]? with
    | none => s
    | some (_, undo) =>
      match s.board.revert undo p with
      | .error _ => s
      | .ok board => { s with board := board }

def run (s : Workbench) : List BoardOperation → Workbench
  | [] => s
  | op :: ops => (s.step op).run ops

/--
Whether an operation that reverts an undo does so at the position that the undo comes from.
-/
def inPlace (s : Workbench) : BoardOperation → Bool
  | .revert number p => s.undos[number]?.all (·.1 = p)
  | _ => true

/--
Whether all undos in the course of a run are reverted at the positions that they come from.
-/
def runsInPlace (s : Workbench) : List BoardOperation → Bool
  | [] => true
  | op :: ops => s.inPlace op && (s.step op).runsInPlace ops

/--
The modules on the board are stored with positions that are related by `R` to those of their cells,
and so are the modules that the undos put back.
-/
structure Stored (s : Workbench) (R : Position → Position → Prop) : Prop where
  board : s.board.Stores R
  undos : ∀ entry ∈ s.undos, entry.2.PutsAt (R entry.1)

theorem stored_step {R : Position → Position → Prop} {s : Workbench} (h : s.Stored R)
    (op : BoardOperation) (hop : (∀ p q, R p = R q) ∨ s.inPlace op = true)
    : (s.step op).Stored R := by
  cases op with
  | addPulse pulse => exact ⟨h.board.addPulse pulse, h.undos⟩
  | update beat => exact ⟨h.board.update beat, h.undos⟩
  | apply action p =>
    simp only [step]
    cases happly : s.board.apply action p with
    | error error => exact h
    | ok result =>
      obtain ⟨board, undo⟩ := result
      obtain ⟨hboard, hundo⟩ := h.board.apply happly
      constructor
      · exact hboard
      · intro entry hentry
        rcases List.mem_append.mp hentry with hold | hnew
        · exact h.undos entry hold
        · rw [List.mem_singleton.mp hnew]
          exact hundo
  | revert number p =>
    simp only [step]
    cases hnumber : s.undos[number]? with
    | none => exact h
    | some entry =>
      obtain ⟨origin, undo⟩ := entry
      have hundo : undo.PutsAt (R origin) := h.undos _ (List.mem_of_getElem? hnumber)
      have hplace : R origin = R p := by
        rcases hop with hconst | hplace
        · exact hconst origin p
        · simp only [inPlace, hnumber, Option.all_some, decide_eq_true_eq] at hplace
          rw [hplace]
      dsimp only
      cases hrevert : s.board.revert undo p with
      | error error => exact h
      | ok board =>
        rw [hplace] at hundo
        exact ⟨h.board.revert hundo hrevert, h.undos⟩

theorem stored_new {R : Position → Position → Prop} {size : Size} (hR : ∀ p ∈ size, R p p)
    : (new size).Stored R := by
  constructor
  · intro p m hm
    rw [new, Board.get?_new] at hm
    split at hm
    · rename_i hp
      cases hm
      exact hR p hp
    · cases hm
  · intro entry hentry
    cases hentry

/--
What every run of a board of this size keeps.
-/
structure Sound (size : Size) (s : Workbench) : Prop where
  size_eq : s.board.size = size
  activation : s.board.ActivationExact
  pulses : s.board.PulsesConfined
  stored : s.Stored fun _ q => q ∈ size

theorem sound_new (size : Size) : (new size).Sound size := by
  refine ⟨rfl, Board.activationExact_new size, ?_, stored_new fun p hp => hp⟩
  constructor
  · exact List.nodup_nil
  · intro pulse hpulse
    cases hpulse

theorem sound_step {size : Size} {s : Workbench} (h : s.Sound size) (op : BoardOperation)
    : (s.step op).Sound size := by
  obtain ⟨hsize, hactivation, hpulses, hstored⟩ := h
  have hstored' := stored_step hstored op (.inl fun _ _ => rfl)
  subst hsize
  cases op with
  | addPulse pulse =>
    exact ⟨Board.size_addPulse .., hactivation.addPulse pulse, hpulses.addPulse pulse, hstored'⟩
  | update beat =>
    exact ⟨rfl, hactivation.update beat, .update hstored.board beat, hstored'⟩
  | apply action p =>
    simp only [step] at hstored' ⊢
    cases happly : s.board.apply action p with
    | error error => exact ⟨rfl, hactivation, hpulses, hstored⟩
    | ok result =>
      rw [happly] at hstored'
      obtain ⟨board, undo⟩ := result
      have hactivation' := hactivation.apply happly
      obtain ⟨_, replacement, _, _, rfl⟩ := Board.apply_eq_ok_iff.mp happly
      exact ⟨Board.size_install .., hactivation', hpulses.install p replacement, hstored'⟩
  | revert number p =>
    simp only [step] at hstored' ⊢
    cases hnumber : s.undos[number]? with
    | none => exact ⟨rfl, hactivation, hpulses, hstored⟩
    | some entry =>
      rw [hnumber] at hstored'
      dsimp only at hstored' ⊢
      cases hrevert : s.board.revert entry.2 p with
      | error error => exact ⟨rfl, hactivation, hpulses, hstored⟩
      | ok board =>
        rw [hrevert] at hstored'
        have hactivation' := hactivation.revert hrevert
        obtain ⟨_, restored, _, _, rfl⟩ := Board.revert_eq_ok_iff.mp hrevert
        exact ⟨Board.size_install .., hactivation', hpulses.install p restored, hstored'⟩

theorem sound_run {size : Size} {s : Workbench} (h : s.Sound size) (ops : List BoardOperation)
    : (s.run ops).Sound size := by
  induction ops generalizing s with
  | nil => exact h
  | cons op ops ih => exact ih (sound_step h op)

theorem stored_run {R : Position → Position → Prop} {s : Workbench} (h : s.Stored R)
    {ops : List BoardOperation} (hops : s.runsInPlace ops = true) : (s.run ops).Stored R := by
  induction ops generalizing s with
  | nil => exact h
  | cons op ops ih =>
    simp only [runsInPlace, Bool.and_eq_true] at hops
    exact ih (stored_step h op (.inr hops.1)) hops.2

/--
At every point of every run the active positions are those of the emitters, the pulses in flight are
on the board and no two of them are the same, all modules are stored with positions of the board, and
the next update computes no coordinate beyond the neighbours of the board, which are 32-bit numbers.
If all undos are reverted where they come from, every module is stored with the position of its cell.
-/
theorem run_sound (size : Size) (hwidth : size.width ≤ Size.maxCoordinate)
    (hheight : size.height ≤ Size.maxCoordinate) (ops : List BoardOperation)
    : let b := ((new size).run ops).board
      (b.active.toList.Nodup ∧ ∀ p, p ∈ b.active ↔ ∃ m, b.get? p = some m ∧ m.kind = .emitter) ∧
      (∀ pulse ∈ b.pulses, pulse.position ∈ size) ∧
      (b.pulses.toList.Nodup ∧ b.pulses.toList.length ≤ 4 * size.width * size.height) ∧
      (∀ p m, b.get? p = some m → m.position ∈ size) ∧
      (∀ pulse ∈ b.arrivals,
        (-1 ≤ pulse.position.x ∧ pulse.position.x ≤ size.width ∧
          -1 ≤ pulse.position.y ∧ pulse.position.y ≤ size.height) ∧
        (-2147483648 ≤ pulse.position.x ∧ pulse.position.x ≤ 2147483647 ∧
          -2147483648 ≤ pulse.position.y ∧ pulse.position.y ≤ 2147483647)) ∧
      ((new size).runsInPlace ops = true → ∀ p m, b.get? p = some m → m.position = p) := by
  intro b
  obtain ⟨hsize, hactivation, hpulses, hstored⟩ := sound_run (sound_new size) ops
  have hinside := hpulses.inside
  have hlength := hpulses.length_le
  have hcells : b.Stores fun _ q => q ∈ b.size := by
    rw [hsize]
    exact hstored.board
  rw [hsize] at hinside hlength
  refine ⟨⟨hactivation.nodup, hactivation.mem_iff⟩, hinside, ⟨hpulses.nodup, hlength⟩,
    hstored.board, ?_, ?_⟩
  · intro pulse hpulse
    have hbounds := Board.arrivals_bounds hpulses hcells hpulse
    rw [hsize] at hbounds
    unfold Size.maxCoordinate at hwidth hheight
    omega
  · intro hplace
    have hnew : (new size).Stored fun p q => q = p := stored_new fun _ _ => rfl
    exact (stored_run hnew hplace).board

theorem run_sound_emitter
    : let ops := [.apply (.changeType "emitter") ⟨1, 0⟩, .addPulse ⟨⟨2, 1⟩, .left⟩,
        .apply (.changeType "spreader") ⟨1, 0⟩, .revert 1 ⟨1, 0⟩, .update 0]
      let b := ((new ⟨3, 2⟩).run ops).board
      b.pulses.toList = [⟨⟨1, 1⟩, .left⟩, ⟨⟨1, 0⟩, .up⟩] ∧
      b.pulses.toList.length ≤ 4 * 3 * 2 ∧
      (⟨1, 0⟩ ∈ b.active ↔ ∃ m, b.get? ⟨1, 0⟩ = some m ∧ m.kind = .emitter) ∧
      ∀ p m, b.get? p = some m → m.position = p := by
  intro ops b
  have h := run_sound ⟨3, 2⟩ (by decide) (by decide) ops
  exact ⟨by decide +kernel, h.2.2.1.2, h.1.2 _, h.2.2.2.2.2 (by decide +kernel)⟩

end Workbench

end SignalBoard

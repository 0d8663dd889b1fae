import SignalBoard.Proofs.Board.Run
import SignalBoard.Proofs.Board.Superposition

/-!
This module shows that nothing on a board travels faster than one cell per beat:
`Workbench.directionsAt_of_agreement`. What is in flight on a cell after some beats depends only on the
cells that are at most as many steps away.
-/

namespace SignalBoard

namespace Position

/--
The number of steps that lead from one position to the other.
-/
def distance (p q : Position) : Nat :=
  (p.x - q.x).natAbs + (p.y - q.y).natAbs

theorem distance_self (p : Position) : p.distance p = 0 := by
  simp [distance]

theorem distance_le_of_moved (p q : Position) (d : Direction)
    : q.distance p ≤ q.distance (p.moved d) + 1 := by
  cases d <;>
    simp only [distance, moved, Direction.vector, add_x, add_y] <;>
    omega

end Position

namespace Board

/--
The directions of the pulses that are in flight at `p`.
-/
def directionsAt (b : Board) (p : Position) : Directions where
  up := ⟨p, .up⟩ ∈ b.pulses
  down := ⟨p, .down⟩ ∈ b.pulses
  left := ⟨p, .left⟩ ∈ b.pulses
  right := ⟨p, .right⟩ ∈ b.pulses

@[simp]
theorem contains_directionsAt (b : Board) (p : Position) (d : Direction)
    : (b.directionsAt p).contains d = decide (⟨p, d⟩ ∈ b.pulses) := by
  cases d <;> rfl

theorem directionsAt_eq_iff {b c : Board} {p : Position}
    : c.directionsAt p = b.directionsAt p ↔
        ∀ d, (⟨p, d⟩ : Pulse) ∈ c.pulses ↔ ⟨p, d⟩ ∈ b.pulses := by
  constructor
  · intro h d
    have hd := congrArg (·.contains d) h
    simpa using hd
  · intro h
    ext d
    simp [h d]

/--
Every module is stored with the position of its cell, and the active positions are those of the emitters.
-/
structure Aligned (b : Board) : Prop where
  stored : b.Stores fun p q => q = p
  activation : b.ActivationExact

namespace Aligned

variable {b : Board}

theorem update (h : b.Aligned) (beat : Nat) : (b.update beat).Aligned :=
  ⟨h.stored.update beat, h.activation.update beat⟩

/--
A pulse comes from the cell behind it.
-/
theorem moved_of_mem_routePulse (h : b.Aligned) {old pulse : Pulse} (hpulse : pulse ∈ b.routePulse old)
    : old.position.moved pulse.direction = pulse.position := by
  unfold routePulse at hpulse
  split at hpulse
  · rename_i m hm
    rcases Module.cases_of_mem_route (List.mem_filter.mp hpulse).1 with hleft | hstep
    · rw [hleft, h.stored _ m hm]
      rfl
    · rw [hstep]
      rfl
  · cases hpulse

/--
What an emitter sends out starts on its own cell.
-/
theorem position_of_mem_emitAt (h : b.Aligned) {beat : Nat} {p : Position} {pulse : Pulse}
    (hpulse : pulse ∈ b.emitAt beat p) : pulse.position = p := by
  unfold emitAt at hpulse
  split at hpulse
  · rename_i m hm
    rw [Module.position_of_mem_emit hpulse, h.stored p m hm]
  · cases hpulse

end Aligned

/--
The boards `b` and `c` have the same modules and the same pulses on all cells that are at most `n` steps
away from `q`.
-/
structure AgreeWithin (n : Nat) (q : Position) (b c : Board) : Prop where
  size : c.size = b.size
  modules : ∀ p, q.distance p ≤ n → c.get? p = b.get? p
  pulses : ∀ pulse : Pulse, q.distance pulse.position ≤ n → (pulse ∈ c.pulses ↔ pulse ∈ b.pulses)

namespace AgreeWithin

variable {n : Nat} {q : Position} {b c : Board}

theorem symm (h : AgreeWithin n q b c) : AgreeWithin n q c b where
  size := h.size.symm
  modules p hp := (h.modules p hp).symm
  pulses pulse hpulse := (h.pulses pulse hpulse).symm

theorem mem_active (h : AgreeWithin n q b c) (hb : b.Aligned) (hc : c.Aligned) {p : Position}
    (hp : q.distance p ≤ n) : p ∈ c.active ↔ p ∈ b.active := by
  rw [hc.activation.mem_iff, hb.activation.mem_iff, h.modules p hp]

theorem routePulse (h : AgreeWithin n q b c) {old : Pulse} (hold : q.distance old.position ≤ n)
    : c.routePulse old = b.routePulse old := by
  rw [Board.routePulse, Board.routePulse, h.modules _ hold, h.size]

theorem emitAt (h : AgreeWithin n q b c) (beat : Nat) {p : Position} (hp : q.distance p ≤ n)
    : c.emitAt beat p = b.emitAt beat p := by
  rw [Board.emitAt, Board.emitAt, h.modules p hp]

theorem mem_pulses_update_of_mem (h : AgreeWithin (n + 1) q b c) (hb : b.Aligned)
    (hc : c.Aligned) {beat : Nat} {pulse : Pulse} (hnear : q.distance pulse.position ≤ n)
    (hpulse : pulse ∈ (b.update beat).pulses) : pulse ∈ (c.update beat).pulses := by
  rw [mem_pulses_update] at hpulse ⊢
  rcases hpulse with ⟨old, hold, hroute⟩ | ⟨p, hp, hemit⟩
  · left
    -- the pulse was one step away from where it is now
    have hstep := Position.distance_le_of_moved old.position q pulse.direction
    rw [hb.moved_of_mem_routePulse hroute] at hstep
    have hbefore : q.distance old.position ≤ n + 1 := by omega
    refine ⟨old, (h.pulses old hbefore).mpr hold, ?_⟩
    rwa [h.routePulse hbefore]
  · right
    have hcell : q.distance p ≤ n + 1 := by
      rw [← hb.position_of_mem_emitAt hemit]
      omega
    refine ⟨p, (h.mem_active hb hc hcell).mpr hp, ?_⟩
    rwa [h.emitAt beat hcell]

theorem update (h : AgreeWithin (n + 1) q b c) (hb : b.Aligned) (hc : c.Aligned) (beat : Nat)
    : AgreeWithin n q (b.update beat) (c.update beat) where
  size := h.size
  modules p hp := h.modules p (by omega)
  pulses _ hnear := by
    constructor
    · exact h.symm.mem_pulses_update_of_mem hc hb hnear
    · exact h.mem_pulses_update_of_mem hb hc hnear

theorem advance {k : Nat} (h : AgreeWithin (k + n) q b c) (hb : b.Aligned) (hc : c.Aligned)
    (beat : Nat) : AgreeWithin k q (b.advance beat n) (c.advance beat n) := by
  induction n generalizing b c beat with
  | zero => exact h
  | succ n ih => exact ih (h.update hb hc beat) (hb.update beat) (hc.update beat) (beat + 1)

end AgreeWithin

end Board

namespace Workbench

theorem aligned_run (size : Size) {ops : List BoardOperation}
    (hops : (new size).runsInPlace ops = true) : ((new size).run ops).board.Aligned where
  stored := by
    have hnew : (new size).Stored fun p q => q = p := stored_new fun _ _ => rfl
    exact (stored_run hnew hops).board
  activation := (sound_run (sound_new size) ops).activation

theorem agreeWithin_run {size : Size} {ops₁ ops₂ : List BoardOperation} {q : Position} {n : Nat}
    (h : ∀ p ∈ size, q.distance p ≤ n →
      ((new size).run ops₂).board.get? p = ((new size).run ops₁).board.get? p ∧
      ((new size).run ops₂).board.directionsAt p = ((new size).run ops₁).board.directionsAt p)
    : Board.AgreeWithin n q ((new size).run ops₁).board ((new size).run ops₂).board := by
  obtain ⟨hsize₁, _, hpulses₁, _⟩ := sound_run (sound_new size) ops₁
  obtain ⟨hsize₂, _, hpulses₂, _⟩ := sound_run (sound_new size) ops₂
  have hinside₁ := hpulses₁.inside
  have hinside₂ := hpulses₂.inside
  rw [hsize₁] at hinside₁
  rw [hsize₂] at hinside₂
  constructor
  case size => rw [hsize₁, hsize₂]
  case modules =>
    intro p hnear
    by_cases hp : p ∈ size
    · exact (h p hp hnear).1
    · have hout₁ : ((new size).run ops₁).board.get? p = none :=
        Board.get?_eq_none_iff.mpr (by rwa [hsize₁])
      have hout₂ : ((new size).run ops₂).board.get? p = none :=
        Board.get?_eq_none_iff.mpr (by rwa [hsize₂])
      rw [hout₁, hout₂]
  case pulses =>
    intro pulse hnear
    by_cases hp : pulse.position ∈ size
    · exact Board.directionsAt_eq_iff.mp (h _ hp hnear).2 pulse.direction
    · constructor
      · exact fun hpulse => absurd (hinside₂ pulse hpulse) hp
      · exact fun hpulse => absurd (hinside₁ pulse hpulse) hp

/--
If two boards have the same modules and the same pulses on all cells that are at most `n` steps away from
`q`, then after `n` beats the same pulses are in flight at `q`, whatever there is further away.
-/
theorem directionsAt_of_agreement (size : Size) {ops₁ ops₂ : List BoardOperation}
    (hops₁ : (new size).runsInPlace ops₁ = true) (hops₂ : (new size).runsInPlace ops₂ = true)
    (q : Position) (n beat : Nat)
    : let b := ((new size).run ops₁).board
      let c := ((new size).run ops₂).board
      (∀ p ∈ size, q.distance p ≤ n → c.get? p = b.get? p ∧ c.directionsAt p = b.directionsAt p) →
        (c.advance beat n).directionsAt q = (b.advance beat n).directionsAt q := by
  intro b c h
  have hagree : Board.AgreeWithin (0 + n) q b c := by
    rw [Nat.zero_add]
    exact agreeWithin_run h
  have hafter := hagree.advance (aligned_run size hops₁) (aligned_run size hops₂) beat
  rw [Board.directionsAt_eq_iff]
  intro d
  apply hafter.pulses
  exact Nat.le_of_eq (Position.distance_self q)

/--
A pulse three cells away is noticed after three beats and not after two.
-/
theorem directionsAt_of_agreement_emitter
    : let near := [.apply (.changeType "emitter") ⟨1, 0⟩,
        .apply (.changeProperty [("left_is_output", "true")]) ⟨1, 0⟩]
      let far := [.addPulse ⟨⟨3, 0⟩, .left⟩, .apply (.changeType "spreader") ⟨3, 0⟩,
        .revert 2 ⟨3, 0⟩]
      let b := ((new ⟨4, 1⟩).run near).board
      let c := ((new ⟨4, 1⟩).run (near ++ far)).board
      (c.advance 0 2).directionsAt .origin = (b.advance 0 2).directionsAt .origin ∧
      (b.advance 0 2).directionsAt .origin = .only .left ∧
      (b.advance 0 3).directionsAt .origin = .none ∧
      (c.advance 0 3).directionsAt .origin = .only .left := by
  intro near far b c
  refine ⟨?_, by decide +kernel, by decide +kernel, by decide +kernel⟩
  apply directionsAt_of_agreement ⟨4, 1⟩ (by decide +kernel) (by decide +kernel)
  intro p hp
  have hcells : ∀ p ∈ (⟨4, 1⟩ : Size).positions, Position.origin.distance p ≤ 2 →
      c.get? p = b.get? p ∧ c.directionsAt p = b.directionsAt p := by decide +kernel
  exact hcells p (Size.mem_positions.mpr hp)

end Workbench

end SignalBoard

import Mathlib.Data.List.Basic
import SignalBoard.Proofs.Board.Locality

/-!
This module gives the rule for the pulses of the next beat in terms of the cells that they are on, and not
of the positions that modules are stored with. The main result is `Workbench.pulses_of_next_beat`: a beat
yields exactly the pulses of the rule, in this order, the first of equal ones.
-/

namespace SignalBoard

namespace Body

def spreader? : Body → Option Spreader
  | .spreader s => some s
  | _ => none

def emitter? : Body → Option Emitter
  | .emitter e => some e
  | _ => none

end Body

namespace Board

def spreaderAt? (b : Board) (p : Position) : Option Spreader :=
  (b.get? p).bind (·.body.spreader?)

def emitterAt? (b : Board) (p : Position) : Option Emitter :=
  (b.get? p).bind (·.body.emitter?)

/--
The directions in which a pulse goes on. On a spreader these are all outputs if the pulse came in through
one of the inputs.
-/
def exits (b : Board) (pulse : Pulse) : List Direction :=
  match b.spreaderAt? pulse.position with
  | some s => if s.inputs.contains pulse.direction then s.outputs.toList else [pulse.direction]
  | none => [pulse.direction]

/--
The pulses that become of a pulse: one on the next cell in each direction, as far as that is on the board.
-/
def successors (b : Board) (pulse : Pulse) : List Pulse :=
  ((b.exits pulse).map fun d => ⟨pulse.position + d.vector, d⟩).filter (·.position ∈ b.size)

/--
The pulses that start on the cell `p` on a beat: one in each direction that is an output of the emitter
there, if it is its turn.
-/
def departures (b : Board) (beat : Nat) (p : Position) : List Pulse :=
  match b.emitterAt? p with
  | some e =>
    if 0 < e.interval.toNat ∧ beat % e.interval.toNat = e.offset.toNat then
      e.outputs.toList.map fun d => ⟨p, d⟩
    else
      []
  | none => []

namespace Aligned

variable {b : Board}

theorem routePulse_eq (h : b.Aligned) {pulse : Pulse} (hpulse : pulse.position ∈ b.size)
    : b.routePulse pulse = b.successors pulse := by
  obtain ⟨m, hm⟩ := exists_get? hpulse
  have hstored := h.stored _ m hm
  unfold routePulse successors exits spreaderAt?
  rw [hm]
  dsimp only [Option.bind_some]
  congr 1
  unfold Module.route
  rw [hstored]
  cases m.body with
  | empty => rfl
  | emitter e => rfl
  | spreader s =>
    dsimp only [Body.spreader?]
    split <;> rfl

theorem emitAt_eq (h : b.Aligned) (beat : Nat) (p : Position)
    : b.emitAt beat p = b.departures beat p := by
  unfold emitAt departures emitterAt?
  cases hm : b.get? p with
  | none => rfl
  | some m =>
    dsimp only [Option.bind_some]
    unfold Module.emit
    rw [h.stored p m hm]
    cases m.body with
    | empty => rfl
    | spreader s => rfl
    | emitter e =>
      dsimp only [Body.emitter?]
      simp only [Emitter.fires_iff]

theorem toList_pulses_update (h : b.Aligned) (hpulses : b.PulsesConfined) (beat : Nat)
    : (b.update beat).pulses.toList
        =
      (b.pulses.toList.flatMap b.successors ++ b.active.toList.flatMap (b.departures beat)).eraseDups := by
  have hrouted : b.pulses.toList.flatMap b.routePulse = b.pulses.toList.flatMap b.successors := by
    apply List.flatMap_congr
    intro pulse hpulse
    exact h.routePulse_eq (hpulses.inside pulse hpulse)
  have hemitted : b.emitAt beat = b.departures beat := by
    funext p
    exact h.emitAt_eq beat p
  rw [Board.update, OrderedSet.toList_ofList, hrouted, hemitted]

end Aligned

end Board

namespace Workbench

/--
After a beat the pulses are those that become of the old ones, in their order, followed by those that the
emitters send out, in the order of their activation. Of equal pulses the first is kept. Nothing else on
the board changes.
-/
theorem pulses_of_next_beat (size : Size) {ops : List BoardOperation}
    (hops : (new size).runsInPlace ops = true) (beat : Nat)
    : let b := ((new size).run ops).board
      (b.update beat).pulses.toList
        =
      (b.pulses.toList.flatMap b.successors ++ b.active.toList.flatMap (b.departures beat)).eraseDups ∧
      (b.update beat).modules = b.modules ∧ (b.update beat).active = b.active ∧
      (b.update beat).size = b.size := by
  intro b
  have hpulses := (sound_run (sound_new size) ops).pulses
  exact ⟨(aligned_run size hops).toList_pulses_update hpulses beat, rfl, rfl, rfl⟩

/--
Two pulses leave a spreader in the same directions, one of them for a cell where an emitter sends out its
like, and a third pulse leaves the board.
-/
theorem pulses_of_next_beat_spreader
    : let ops := [.apply (.changeType "spreader") ⟨1, 1⟩,
        .apply (.changeProperty [("up_is_output", "true")]) ⟨1, 1⟩, .apply (.changeType "emitter") ⟨1, 0⟩,
        .addPulse ⟨⟨1, 1⟩, .down⟩, .addPulse ⟨⟨0, 0⟩, .up⟩, .addPulse ⟨⟨1, 1⟩, .right⟩]
      let b := ((new ⟨3, 2⟩).run ops).board
      (new ⟨3, 2⟩).runsInPlace ops = true ∧
      b.pulses.toList.flatMap b.successors ++ b.active.toList.flatMap (b.departures 0)
        =
      [⟨⟨1, 0⟩, .up⟩, ⟨⟨2, 1⟩, .right⟩, ⟨⟨1, 0⟩, .up⟩, ⟨⟨2, 1⟩, .right⟩, ⟨⟨1, 0⟩, .up⟩] ∧
      (b.update 0).pulses.toList = [⟨⟨1, 0⟩, .up⟩, ⟨⟨2, 1⟩, .right⟩] := by
  intro ops b
  have hops : (new ⟨3, 2⟩).runsInPlace ops = true := by decide +kernel
  have hrule : b.pulses.toList.flatMap b.successors ++ b.active.toList.flatMap (b.departures 0)
      = [⟨⟨1, 0⟩, .up⟩, ⟨⟨2, 1⟩, .right⟩, ⟨⟨1, 0⟩, .up⟩, ⟨⟨2, 1⟩, .right⟩, ⟨⟨1, 0⟩, .up⟩] := by
    decide +kernel
  refine ⟨hops, hrule, ?_⟩
  rw [(pulses_of_next_beat ⟨3, 2⟩ hops 0).1, hrule]
  decide

end Workbench

end SignalBoard

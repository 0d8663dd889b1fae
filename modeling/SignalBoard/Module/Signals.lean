import SignalBoard.Module.Basic
import SignalBoard.Pulse

/-!
This module contains what modules do with pulses: `Module.route` handles a pulse that arrives, and
`Module.emit` gives the pulses that a module sends out on a beat.
-/

namespace SignalBoard

/--
Whether an emitter sends out pulses on a beat: every `interval` beats, `offset` beats after the
multiples of the interval. An interval of zero means never.
-/
def Emitter.fires (e : Emitter) (beat : Nat) : Bool :=
  e.interval ≠ 0 && beat % e.interval.toNat = e.offset.toNat

theorem Emitter.fires_iff {e : Emitter} {beat : Nat}
    : e.fires beat = true ↔ 0 < e.interval.toNat ∧ beat % e.interval.toNat = e.offset.toNat := by
  have hzero : e.interval = 0 ↔ e.interval.toNat = 0 := by
    rw [← UInt32.toNat_inj]
    rfl
  simp [fires, hzero, Nat.pos_iff_ne_zero]

namespace Module

/--
The pulses that become of a pulse that stands on the module. A spreader sends a pulse that came in
through one of its inputs out of all its outputs, from its own position. Every other pulse goes on
along its direction.
-/
def route (m : Module) (pulse : Pulse) : List Pulse :=
  match m.body with
  | .spreader s =>
    if s.inputs.contains pulse.direction then
      s.outputs.toList.map (Pulse.leaving m.position)
    else
      [pulse.step]
  | _ => [pulse.step]

/--
The pulses that the module sends out on a beat. They start at the module's own position.
-/
def emit (m : Module) (beat : Nat) : List Pulse :=
  match m.body with
  | .emitter e => if e.fires beat then e.outputs.toList.map (Pulse.mk m.position) else []
  | _ => []

end Module

end SignalBoard

import SignalBoard.Space.Direction

/-!
This module contains positions on the plane that the board is a part of.
-/

namespace SignalBoard

/--
A point of the plane. The board has its upper left corner at the origin, and `y` grows downwards.
-/
structure Position where
  x : Int
  y : Int
deriving DecidableEq, Inhabited

namespace Position

def origin : Position := ⟨0, 0⟩

instance : Add Position where
  add p q := ⟨p.x + q.x, p.y + q.y⟩

/--
The point `n` times as far from the origin.
-/
def scale (p : Position) (n : Int) : Position :=
  ⟨p.x * n, p.y * n⟩

def render (p : Position) : String :=
  s!"({p.x}, {p.y})"

@[simp]
theorem add_x (p q : Position) : (p + q).x = p.x + q.x := rfl

@[simp]
theorem add_y (p q : Position) : (p + q).y = p.y + q.y := rfl

@[simp]
theorem scale_x (p : Position) (n : Int) : (p.scale n).x = p.x * n := rfl

@[simp]
theorem scale_y (p : Position) (n : Int) : (p.scale n).y = p.y * n := rfl

@[ext]
theorem ext {p q : Position} (hx : p.x = q.x) (hy : p.y = q.y) : p = q := by
  cases p
  cases q
  simp_all

end Position

/--
The step of length one in direction `d`.
-/
def Direction.vector : Direction → Position
  | .up => ⟨0, -1⟩
  | .down => ⟨0, 1⟩
  | .left => ⟨-1, 0⟩
  | .right => ⟨1, 0⟩

def Position.moved (p : Position) (d : Direction) : Position :=
  p + d.vector

end SignalBoard

/-!
This module contains the four directions a signal can travel in, and sets of directions.
-/

namespace SignalBoard

/--
A direction on the board. The vertical axis grows downwards.
-/
inductive Direction where
  | up
  | down
  | left
  | right
deriving DecidableEq, Inhabited

namespace Direction

/--
Every direction, in the order in which a set of directions is enumerated.
-/
def all : List Direction := [.up, .down, .left, .right]

def name : Direction → String
  | .up => "up"
  | .down => "down"
  | .left => "left"
  | .right => "right"

/--
Find the direction that is called `text`, spelled exactly as by `Direction.name`.
-/
def ofName? (text : String) : Option Direction :=
  all.find? (·.name = text)

theorem mem_all (d : Direction) : d ∈ all := by
  cases d <;> decide

theorem name_inj {d e : Direction} : d.name = e.name ↔ d = e := by
  cases d <;> cases e <;> decide

@[simp]
theorem ofName?_name (d : Direction) : ofName? d.name = some d := by
  cases d <;> decide

end Direction

/--
A set of directions, as one flag for each of them.
-/
structure Directions where
  up : Bool
  down : Bool
  left : Bool
  right : Bool
deriving DecidableEq, Inhabited

namespace Directions

def none : Directions := ⟨false, false, false, false⟩

def all : Directions := ⟨true, true, true, true⟩

def contains (s : Directions) : Direction → Bool
  | .up => s.up
  | .down => s.down
  | .left => s.left
  | .right => s.right

/--
Put `d` into the set when `on`, and take it out otherwise.
-/
def set (s : Directions) (d : Direction) (on : Bool) : Directions :=
  match d with
  | .up => { s with up := on }
  | .down => { s with down := on }
  | .left => { s with left := on }
  | .right => { s with right := on }

/--
The set that holds `d` alone.
-/
def only (d : Direction) : Directions :=
  none.set d true

/--
The members of the set, in the order of `Direction.all`.
-/
def toList (s : Directions) : List Direction :=
  Direction.all.filter s.contains

@[simp]
theorem contains_none (d : Direction) : none.contains d = false := by
  cases d <;> rfl

@[simp]
theorem contains_all (d : Direction) : all.contains d = true := by
  cases d <;> rfl

theorem contains_set (s : Directions) (d e : Direction) (on : Bool)
    : (s.set d on).contains e = if e = d then on else s.contains e := by
  cases d <;> cases e <;> rfl

@[ext]
theorem ext {s t : Directions} (h : ∀ d, s.contains d = t.contains d) : s = t := by
  cases s
  cases t
  have hup := h .up
  have hdown := h .down
  have hleft := h .left
  have hright := h .right
  simp only [contains] at hup hdown hleft hright
  subst hup hdown hleft hright
  rfl

@[simp]
theorem mem_toList {s : Directions} {d : Direction} : d ∈ s.toList ↔ s.contains d = true := by
  simp [toList, Direction.mem_all]

end Directions

end SignalBoard

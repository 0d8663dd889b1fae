import Mathlib.Algebra.Group.Int.Defs
import Mathlib.Algebra.Group.Nat.Defs
import SignalBoard.Action
import SignalBoard.Proofs.Space.Grid

/-!
This module shows where the cursor gets by moves that stop at the edge: `Position.walk_clamps_once`. Moves
in one direction lead as far as the edge lets them, and the moves along one axis do not notice those along
the other.
-/

namespace SignalBoard

theorem Action.applyToCursor_mem {cursor : Position} {size : Size} (h : cursor ∈ size)
    (action : Action) : action.applyToCursor cursor size ∈ size := by
  have hbounds := Size.mem_iff.mp h
  cases action with
  | changeType target => exact h
  | changeProperty changes => exact h
  | moveCursor direction => exact Size.clamp_mem (by omega) (by omega) _

inductive Axis where
  | horizontal
  | vertical
deriving DecidableEq

def Direction.axis : Direction → Axis
  | .up => .vertical
  | .down => .vertical
  | .left => .horizontal
  | .right => .horizontal

def Position.along (p : Position) : Axis → Int
  | .horizontal => p.x
  | .vertical => p.y

def Size.extent (size : Size) : Axis → Nat
  | .horizontal => size.width
  | .vertical => size.height

theorem Position.ext_along {p q : Position} (h : ∀ axis, p.along axis = q.along axis) : p = q :=
  Position.ext (h .horizontal) (h .vertical)

@[simp]
theorem Position.along_add (p q : Position) (axis : Axis)
    : (p + q).along axis = p.along axis + q.along axis := by
  cases axis <;> rfl

@[simp]
theorem Position.along_scale (p : Position) (n : Int) (axis : Axis)
    : (p.scale n).along axis = p.along axis * n := by
  cases axis <;> rfl

@[simp]
theorem Size.along_clamp (size : Size) (p : Position) (axis : Axis)
    : (size.clamp p).along axis = clampAxis (size.extent axis) (p.along axis) := by
  cases axis <;> rfl

theorem Size.along_bounds {size : Size} {p : Position} (h : p ∈ size) (axis : Axis)
    : 0 ≤ p.along axis ∧ p.along axis < size.extent axis := by
  obtain ⟨hx, hy, hw, hh⟩ := mem_iff.mp h
  cases axis with
  | horizontal => exact ⟨hx, hw⟩
  | vertical => exact ⟨hy, hh⟩

theorem Direction.along_vector_of_ne {d : Direction} {axis : Axis} (h : d.axis ≠ axis)
    : d.vector.along axis = 0 := by
  cases d <;> cases axis <;> first | rfl | exact absurd rfl h

/--
A size without coordinates of more than 32 bits.
-/
structure Size.Bounded (size : Size) : Prop where
  width_le : size.width ≤ Size.maxCoordinate
  height_le : size.height ≤ Size.maxCoordinate

theorem Size.Bounded.extent_le {size : Size} (h : size.Bounded) (axis : Axis)
    : size.extent axis ≤ maxCoordinate := by
  cases axis with
  | horizontal => exact h.width_le
  | vertical => exact h.height_le

namespace Size

variable {extent : Nat} (hextent : extent ≤ maxCoordinate)

include hextent

theorem clampAxis_eq (hpos : 0 < extent) (v : Int)
    : clampAxis extent v = max 0 (min v (extent - 1)) := by
  unfold clampAxis
  omega

theorem clampAxis_of_bounds {v : Int} (hv : 0 ≤ v ∧ v < extent) : clampAxis extent v = v := by
  rw [clampAxis_eq hextent (by omega)]
  omega

/--
Whoever goes on in the direction in which an edge was met does not notice the edge.
-/
theorem clampAxis_clampAxis_add {v way step : Int} (hv : 0 ≤ v ∧ v < extent)
    (hsame : 0 ≤ way ∧ 0 ≤ step ∨ way ≤ 0 ∧ step ≤ 0)
    : clampAxis extent (clampAxis extent (v + way) + step) = clampAxis extent (v + way + step) := by
  have hpos : 0 < extent := by omega
  rw [clampAxis_eq hextent hpos, clampAxis_eq hextent hpos, clampAxis_eq hextent hpos]
  omega

end Size

namespace Position

/--
The position after moves that are made one by one, and of which each stops at the edge.
-/
def walk (p : Position) (size : Size) (ds : List Direction) : Position :=
  ds.foldl (fun q d => (Action.moveCursor d).applyToCursor q size) p

section Walk

variable {p : Position} {size : Size}

theorem walk_cons (d : Direction) (ds : List Direction)
    : p.walk size (d :: ds) = (size.clamp (p.moved d)).walk size ds := rfl

theorem walk_concat (ds : List Direction) (d : Direction)
    : p.walk size (ds ++ [d]) = size.clamp ((p.walk size ds).moved d) := by
  rw [walk, List.foldl_append]
  rfl

theorem walk_mem (hp : p ∈ size) (ds : List Direction) : p.walk size ds ∈ size := by
  induction ds generalizing p with
  | nil => exact hp
  | cons d ds ih => exact ih (Action.applyToCursor_mem hp (.moveCursor d))

theorem walk_replicate (hsize : size.Bounded) (hp : p ∈ size) (d : Direction) (n : Nat)
    : p.walk size (List.replicate n d) = size.clamp (p + d.vector.scale n) := by
  apply ext_along
  intro axis
  have hbounds := Size.along_bounds hp axis
  have hextent := hsize.extent_le axis
  induction n with
  | zero =>
    rw [Size.along_clamp, along_add, along_scale, Int.natCast_zero, Int.mul_zero, Int.add_zero,
      Size.clampAxis_of_bounds hextent hbounds]
    rfl
  | succ n ih =>
    -- both the way so far and the next step have the sign of the direction
    have hsame : 0 ≤ d.vector.along axis * n ∧ 0 ≤ d.vector.along axis ∨
        d.vector.along axis * n ≤ 0 ∧ d.vector.along axis ≤ 0 := by
      cases d <;> cases axis <;> simp only [Direction.vector, along] <;> omega
    rw [List.replicate_succ', walk_concat, moved, Size.along_clamp, along_add, ih, Size.along_clamp,
      along_add, along_scale, Size.clampAxis_clampAxis_add hextent hbounds hsame, Size.along_clamp,
      along_add, along_scale, Int.natCast_succ, Int.mul_add, Int.mul_one, Int.add_assoc]

theorem along_walk (hsize : size.Bounded) (hp : p ∈ size) (axis : Axis) (ds : List Direction)
    : (p.walk size ds).along axis
        =
      (ds.filter (·.axis = axis)).foldl
        (fun v d => Size.clampAxis (size.extent axis) (v + d.vector.along axis)) (p.along axis) := by
  induction ds generalizing p with
  | nil => rfl
  | cons d ds ih =>
    have hnext : size.clamp (p.moved d) ∈ size := Action.applyToCursor_mem hp (.moveCursor d)
    rw [walk_cons, ih hnext, Size.along_clamp, moved, along_add]
    by_cases haxis : d.axis = axis
    · rw [List.filter_cons_of_pos (by simpa using haxis), List.foldl_cons]
    · rw [List.filter_cons_of_neg (by simpa using haxis), Direction.along_vector_of_ne haxis,
        Int.add_zero, Size.clampAxis_of_bounds (hsize.extent_le axis) (Size.along_bounds hp axis)]

end Walk

/--
Moves in one direction from a cell lead to where all of them together would lead, pulled back onto the
board. Whatever the moves, none of them computes a coordinate of more than 32 bits. On each axis it matters
only which moves along this axis are made, and in which order, so that moves along different axes can
change places.
-/
theorem walk_clamps_once (size : Size) (hwidth : size.width ≤ 2 ^ 31 - 1)
    (hheight : size.height ≤ 2 ^ 31 - 1) (p : Position) (hp : p ∈ size)
    : (∀ d n, p.walk size (List.replicate n d)
        =
      ⟨max 0 (min (p.x + n * d.vector.x) (size.width - 1)),
        max 0 (min (p.y + n * d.vector.y) (size.height - 1))⟩) ∧
      (∀ ds d,
        let next := (p.walk size ds).moved d
        (-2 ^ 31 ≤ next.x ∧ next.x ≤ 2 ^ 31 - 1) ∧ -2 ^ 31 ≤ next.y ∧ next.y ≤ 2 ^ 31 - 1) ∧
      (∀ axis, ∀ q ∈ size, q.along axis = p.along axis → ∀ ds es : List Direction,
        ds.filter (·.axis = axis) = es.filter (·.axis = axis) →
          (p.walk size ds).along axis = (q.walk size es).along axis) ∧
      ∀ ds es : List Direction, (∀ axis, ds.filter (·.axis = axis) = es.filter (·.axis = axis)) →
        p.walk size ds = p.walk size es := by
  have hsize : size.Bounded := ⟨hwidth, hheight⟩
  have halong : ∀ axis, ∀ q ∈ size, q.along axis = p.along axis → ∀ ds es : List Direction,
      ds.filter (·.axis = axis) = es.filter (·.axis = axis) →
        (p.walk size ds).along axis = (q.walk size es).along axis := by
    intro axis q hq hstart ds es hmoves
    rw [along_walk hsize hp, along_walk hsize hq, hstart, hmoves]
  refine ⟨?_, ?_, halong, ?_⟩
  · intro d n
    obtain ⟨hx, hy, hw, hh⟩ := Size.mem_iff.mp hp
    rw [walk_replicate hsize hp, Size.clamp, Size.clampAxis_eq hwidth (by omega),
      Size.clampAxis_eq hheight (by omega), add_x, add_y, scale_x, scale_y, Int.mul_comm,
      Int.mul_comm d.vector.y]
  · intro ds d
    have hbounds := Size.moved_bounds (walk_mem hp ds) d
    dsimp only
    omega
  · intro ds es hmoves
    exact ext_along fun axis => halong axis p hp rfl ds es (hmoves axis)

theorem walk_clamps_once_edge
    : let size : Size := ⟨2147483647, 2⟩
      let p : Position := ⟨2147483645, 0⟩
      p ∈ size ∧ p.walk size (List.replicate 5 .right) = ⟨2147483646, 0⟩ ∧
      ((p.walk size [.right, .up]).moved .right).x ≤ 2 ^ 31 - 1 ∧
      (p.walk size [.right, .up, .right, .left]).along .horizontal
        =
      (Position.walk ⟨2147483645, 1⟩ size [.down, .right, .right, .left]).along .horizontal ∧
      p.walk size [.right, .up, .right, .left, .down] = p.walk size [.up, .down, .right, .right, .left] := by
  intro size p
  have hp : p ∈ size := by decide
  obtain ⟨hclamp, hfits, halong, hmoves⟩ := walk_clamps_once size (by decide) (by decide) p hp
  have hx := halong .horizontal ⟨2147483645, 1⟩ (by decide) rfl [.right, .up, .right, .left]
    [.down, .right, .right, .left] rfl
  refine ⟨hp, ?_, (hfits [.right, .up] .right).1.2, hx, ?_⟩
  · rw [hclamp]
    rfl
  · apply hmoves
    intro axis
    cases axis <;> rfl

end Position

end SignalBoard

import SignalBoard.Space.Position
import SignalBoard.Text.Numeral

/-!
This module contains sizes of boards: which positions lie inside, how a position is pulled back
inside, and the written form `WxH`.
-/

namespace SignalBoard

structure Size where
  width : Nat
  height : Nat
deriving DecidableEq, Inhabited

namespace Size

/--
The largest coordinate a position on a board can have, which is `2 ^ 31 - 1`.
-/
def maxCoordinate : Nat := 2147483647

def area (size : Size) : Nat :=
  size.width * size.height

/--
A position belongs to a size when it is one of the cells of a board of that size.
-/
instance : Membership Position Size where
  mem size p := 0 ≤ p.x ∧ 0 ≤ p.y ∧ p.x < size.width ∧ p.y < size.height

theorem mem_iff {size : Size} {p : Position}
    : p ∈ size ↔ 0 ≤ p.x ∧ 0 ≤ p.y ∧ p.x < size.width ∧ p.y < size.height :=
  Iff.rfl

instance (size : Size) (p : Position) : Decidable (p ∈ size) :=
  decidable_of_iff _ mem_iff.symm

/--
Every cell of a board of this size, row by row.
-/
def positions (size : Size) : List Position :=
  (List.range size.height).flatMap fun (y : Nat) =>
    (List.range size.width).map fun (x : Nat) => ⟨x, y⟩

/--
The nearest number to `v` among `0, …, extent - 1`, where an extent of zero counts as one.
-/
def clampAxis (extent : Nat) (v : Int) : Int :=
  max 0 (min v (min (extent - 1) maxCoordinate : Nat))

/--
Pull a position back onto the board, each axis on its own.
-/
def clamp (size : Size) (p : Position) : Position :=
  ⟨clampAxis size.width p.x, clampAxis size.height p.y⟩

/--
The number of cells in front of `p` when the cells are counted row by row.
-/
def index (size : Size) (p : Position) : Nat :=
  p.x.toNat + p.y.toNat * size.width

theorem index_lt_area {size : Size} {p : Position} (h : p ∈ size) : size.index p < size.area := by
  obtain ⟨hx, hy, hw, hh⟩ := mem_iff.mp h
  have hxw : p.x.toNat < size.width := by omega
  have hyh : p.y.toNat + 1 ≤ size.height := by omega
  have := Nat.mul_le_mul_left size.width hyh
  unfold index area
  rw [Nat.mul_succ, Nat.mul_comm] at this
  omega

theorem length_rows {α β : Type} {row : α → List β} {w : Nat} (hrow : ∀ a, (row a).length = w)
    (as : List α) : (as.flatMap row).length = as.length * w := by
  induction as with
  | nil => rw [List.flatMap_nil, List.length_nil, List.length_nil, Nat.zero_mul]
  | cons a as ih =>
    rw [List.flatMap_cons, List.length_append, hrow, ih, List.length_cons, Nat.succ_mul, Nat.add_comm]

theorem length_positions (size : Size) : size.positions.length = size.area := by
  rw [positions, length_rows (w := size.width) (by simp), List.length_range, area, Nat.mul_comm]

/--
Rows of equal length `w` that are written one after the other: column `x` of row `y` is element
`x + y * w` of the whole.
-/
theorem getElem?_rows {α β : Type} {row : α → List β} {w x : Nat} (hrow : ∀ a, (row a).length = w)
    (hx : x < w) (as : List α) (y : Nat)
    : (as.flatMap row)[x + y * w]? = as[y]?.bind fun a => (row a)[x]? := by
  induction as generalizing y with
  | nil => simp
  | cons a as ih =>
    have hlength := hrow a
    rw [List.flatMap_cons]
    cases y with
    | zero =>
      rw [Nat.zero_mul, Nat.add_zero, List.getElem?_append_left (by omega)]
      rfl
    | succ y =>
      have hbehind : x + (y + 1) * w = w + (x + y * w) := by
        rw [Nat.succ_mul]
        omega
      rw [hbehind, List.getElem?_append_right (by omega), hlength, Nat.add_sub_cancel_left, ih]
      rfl

theorem getElem?_positions {size : Size} {p : Position} (h : p ∈ size)
    : size.positions[size.index p]? = some p := by
  obtain ⟨hx, hy, hw, hh⟩ := mem_iff.mp h
  have hcolumn : p.x.toNat < size.width := by omega
  have hrow : p.y.toNat < size.height := by omega
  have hcell : (⟨p.x.toNat, p.y.toNat⟩ : Position) = p := by
    rw [Int.toNat_of_nonneg hx, Int.toNat_of_nonneg hy]
  rw [positions, index, getElem?_rows (by simp) hcolumn, List.getElem?_range hrow, Option.bind_some,
    List.getElem?_map, List.getElem?_range hcolumn, Option.map_some, hcell]

theorem mem_positions {size : Size} {p : Position} : p ∈ size.positions ↔ p ∈ size := by
  constructor
  · simp only [positions, List.mem_flatMap, List.mem_map, List.mem_range, mem_iff]
    rintro ⟨y, hy, x, hx, rfl⟩
    simp only
    omega
  · intro h
    exact List.mem_of_getElem? (getElem?_positions h)

theorem index_inj {size : Size} {p q : Position} (hp : p ∈ size) (hq : q ∈ size)
    : size.index p = size.index q ↔ p = q := by
  constructor
  · intro h
    have := getElem?_positions hp
    rw [h, getElem?_positions hq] at this
    exact (Option.some.inj this).symm
  · rintro rfl
    rfl

def render (size : Size) : String :=
  s!"{size.width}x{size.height}"

inductive ReadError where
  | format (text : String)
  | width (text : String)
  | height (text : String)
  | empty (text : String)
  | tooLarge (text : String)
deriving DecidableEq

def ReadError.message : ReadError → String
  | .format text => s!"invalid format: {text}"
  | .width text => s!"invalid width: {text}"
  | .height text => s!"invalid height: {text}"
  | .empty text => s!"size must not be empty: {text}"
  | .tooLarge text => s!"size is too large: {text}"

/--
The largest number that is read at all; a longer numeral is refused like a malformed one.
-/
def maxNumeral : Nat := UInt64.size - 1

/--
Read a size written as width, `x` and height. The first `x` divides the text, and both numbers must
be positive and leave every cell with coordinates of at most `maxCoordinate`. The number of cells must
not be too large to be read itself.
-/
def read (text : String) : Except ReadError Size :=
  let cs := text.toList
  match cs.dropWhile (· ≠ 'x') with
  | [] => .error (.format text)
  | _ :: tail =>
    let front := cs.takeWhile (· ≠ 'x')
    match Numeral.read maxNumeral front with
    | .error _ => .error (.width (String.ofList front))
    | .ok width =>
      match Numeral.read maxNumeral tail with
      | .error _ => .error (.height (String.ofList tail))
      | .ok height =>
        if width = 0 ∨ height = 0 then
          .error (.empty text)
        else if maxCoordinate < width ∨ maxCoordinate < height ∨ maxNumeral < width * height then
          .error (.tooLarge text)
        else
          .ok ⟨width, height⟩

end Size

end SignalBoard

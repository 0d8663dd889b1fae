import Mathlib.Algebra.Group.Nat.Defs
import Mathlib.Control.Monad.Basic
import Mathlib.Data.List.Basic
import SignalBoard.Proofs.Space.Grid

/-!
This module shows that a grid keeps one value for each of its cells: `Grid.keeps_every_cell`. The grid is
filled by two nested loops, its cells are found by their numbers, and an iteration takes the numbers apart
again; all three go row by row.
-/

namespace SignalBoard

namespace Position

/--
The position in column `x` of row `y`, with coordinates of 32 bits.
-/
def ofColumnRow (x y : Nat) : Position :=
  ⟨(Int32.ofNat x).toInt, (Int32.ofNat y).toInt⟩

theorem ofColumnRow_eq {x y : Nat} (hx : x < 2 ^ 31) (hy : y < 2 ^ 31) : ofColumnRow x y = ⟨x, y⟩ := by
  rw [ofColumnRow, Int32.toInt_ofNat_of_lt hx, Int32.toInt_ofNat_of_lt hy]

/--
Whether `p` comes before `q` when positions are visited row by row.
-/
def Before (p q : Position) : Prop :=
  p.y < q.y ∨ p.y = q.y ∧ p.x < q.x

end Position

namespace Size

theorem pairwise_positions (size : Size) : size.positions.Pairwise Position.Before := by
  rw [positions, List.pairwise_flatMap]
  constructor
  · intro y _
    rw [List.pairwise_map]
    apply List.pairwise_lt_range.imp
    intro x x' hx
    exact .inr ⟨rfl, Int.ofNat_lt.mpr hx⟩
  · apply List.pairwise_lt_range.imp
    intro y y' hy p hp q hq
    obtain ⟨x, _, rfl⟩ := List.mem_map.mp hp
    obtain ⟨x', _, rfl⟩ := List.mem_map.mp hq
    exact .inl (Int.ofNat_lt.mpr hy)

theorem getElem?_positions_of_lt {size : Size} {i : Nat} (h : i < size.area)
    : size.positions[i]? = some (size.position i) := by
  have := getElem?_positions (position_mem h)
  rwa [index_position] at this

end Size

section Loops

variable {m : Type → Type} [Monad m] [LawfulMonad m] {α β γ : Type}

theorem foldlM_push (f : β → m α) (bs : List β) (as : Array α)
    : bs.foldlM (fun as b => as.push <$> f b) as
        =
      (fun values => as ++ values.toArray) <$> bs.mapM f := by
  induction bs generalizing as with
  | nil => simp
  | cons b bs ih => simp [ih]

theorem foldlM_flatMap (f : γ → β → m γ) (row : α → List β) (as : List α) (c : γ)
    : (as.flatMap row).foldlM f c = as.foldlM (fun c a => (row a).foldlM f c) c := by
  induction as generalizing c with
  | nil => rfl
  | cons a as ih => simp [List.flatMap_cons, List.foldlM_append, ih]

end Loops

namespace Grid

variable {σ α β : Type}

/--
Ask `f` for the value of one cell after the other, row by row. Between two questions `f` can remember
something.
-/
def fill (size : Size) (f : Position → StateM σ α) : StateM σ (Array α) :=
  (List.range size.height).foldlM
    (fun cells y => (List.range size.width).foldlM
      (fun cells x => cells.push <$> f (.ofColumnRow x y)) cells) #[]

theorem fill_eq (size : Size) (f : Position → StateM σ α)
    : fill size f
        =
      List.toArray <$> ((List.range size.height).flatMap fun y =>
        (List.range size.width).map fun x => Position.ofColumnRow x y).mapM f := by
  have hrow : ∀ (y : Nat) (cells : Array α),
      (List.range size.width).foldlM (fun cells x => cells.push <$> f (.ofColumnRow x y)) cells
        =
      ((List.range size.width).map fun x => Position.ofColumnRow x y).foldlM
        (fun cells p => cells.push <$> f p) cells := by
    intro y cells
    rw [List.foldlM_map]
  simp only [fill, hrow]
  rw [← foldlM_flatMap, foldlM_push]
  simp only [Array.empty_append]

theorem length_mapM (f : β → StateM σ α) (bs : List β) (s : σ)
    : ((bs.mapM f).run s).1.length = bs.length := by
  induction bs generalizing s with
  | nil => rfl
  | cons b bs ih =>
    rw [List.mapM_cons]
    exact congrArg (· + 1) (ih _)

theorem size_fill (size : Size) (f : Position → StateM σ α) (s : σ)
    : ((fill size f).run s).1.size = size.area := by
  rw [fill_eq]
  change ((List.mapM f _).run s).1.toArray.size = size.area
  rw [List.size_toArray, length_mapM, Size.length_rows (w := size.width) (by simp), List.length_range,
    Size.area, Nat.mul_comm]

/--
The grid whose cells `f` gives the values for.
-/
def build (size : Size) (f : Position → StateM σ α) : StateM σ (Grid α) :=
  fun s =>
    let filled := (fill size f).run s
    ({ size := size, cells := filled.1, size_cells := size_fill size f s }, filled.2)

section Bounded

variable {size : Size} (hwidth : size.width ≤ 2 ^ 31) (hheight : size.height ≤ 2 ^ 31)

include hwidth hheight

theorem mapM_positions (f : Position → StateM σ α) (s : σ)
    : (size.positions.mapM f).run s
        =
      (((build size f).run s).1.cells.toList, ((build size f).run s).2) := by
  have hplaces : size.positions
      =
    (List.range size.height).flatMap fun y =>
      (List.range size.width).map fun x => Position.ofColumnRow x y := by
    apply List.flatMap_congr
    intro y hy
    apply List.map_congr_left
    intro x hx
    rw [List.mem_range] at hx hy
    rw [Position.ofColumnRow_eq (by omega) (by omega)]
  change _ = (((fill size f).run s).1.toList, ((fill size f).run s).2)
  rw [fill_eq, ← hplaces]
  rfl

/--
Filling a grid from a table of values needs no memory.
-/
theorem build_pure (value : Position → α) (s : σ)
    : (build size fun p => pure (value p)).run s = (ofFn size value, s) := by
  have h := mapM_positions hwidth hheight (fun p => (pure (value p) : StateM σ α)) s
  rw [List.mapM_pure] at h
  obtain ⟨hcells, hstate⟩ := Prod.mk.inj h
  apply Prod.ext
  · simp only [build, ofFn, StateT.run, mk.injEq, true_and]
    apply Array.toList_inj.mp
    exact hcells.symm
  · exact hstate.symm

end Bounded

/--
Why an iteration would break off.
-/
inductive IterationError where
  | divisionByZero
deriving DecidableEq

/--
One step of an iteration: the cell with the number `i`, and the number to go on with. The number is divided
by the width for the position of the cell. There is no further cell behind the last one.
-/
def next (g : Grid α) (i : Nat) : Except IterationError (Option ((Position × α) × Nat)) :=
  match g.cells[i]? with
  | none => .ok none
  | some a =>
    if g.size.width = 0 then
      .error .divisionByZero
    else
      .ok (some ((.ofColumnRow (i % g.size.width) (i / g.size.width), a), i + 1))

/--
An iteration from the number `i` on gives the listed cells, and then ends.
-/
inductive Yields (g : Grid α) : Nat → List (Position × α) → Prop where
  | done {i : Nat} (hnext : g.next i = .ok none) : g.Yields i []
  | more {i j : Nat} {cell : Position × α} {cells : List (Position × α)}
    (hnext : g.next i = .ok (some (cell, j))) (hcells : g.Yields j cells) : g.Yields i (cell :: cells)

variable {g : Grid α}

theorem lt_area_of_getElem? {i : Nat} {a : α} (h : g.cells[i]? = some a) : i < g.size.area := by
  rw [← g.size_cells]
  exact (Array.getElem?_eq_some_iff.mp h).1

theorem next_ne_divisionByZero (i : Nat) : g.next i ≠ .error .divisionByZero := by
  unfold next
  cases hcell : g.cells[i]? with
  | none => nofun
  | some a =>
    -- where there is a cell, the width is not zero
    have := Size.width_pos_of_lt_area (lt_area_of_getElem? hcell)
    dsimp only
    rw [if_neg (by omega)]
    nofun

theorem getElem?_toList (i : Nat)
    : g.toList[i]? = g.cells[i]?.map fun a => (g.size.position i, a) := by
  simp [toList, Size.position, Function.comp_def]

theorem get?_of_mem_toList {cell : Position × α} (h : cell ∈ g.toList)
    : g.get? cell.1 = some cell.2 := by
  obtain ⟨i, hi⟩ := List.mem_iff_getElem?.mp h
  rw [getElem?_toList, Option.map_eq_some_iff] at hi
  obtain ⟨a, ha, rfl⟩ := hi
  rw [get?, if_pos (Size.position_mem (lt_area_of_getElem? ha)), Size.index_position, ha]

theorem map_fst_toList : g.toList.map Prod.fst = g.size.positions := by
  apply List.ext_getElem?
  intro i
  rw [List.getElem?_map, getElem?_toList]
  by_cases hi : i < g.size.area
  · rw [Size.getElem?_positions_of_lt hi, Array.getElem?_eq_getElem (by rwa [g.size_cells])]
    rfl
  · rw [Array.getElem?_eq_none (by rw [g.size_cells]; omega),
      List.getElem?_eq_none (by rw [Size.length_positions]; omega)]
    rfl

theorem map_snd_toList : g.toList.map Prod.snd = g.cells.toList := by
  apply List.ext_getElem?
  intro i
  rw [List.getElem?_map, getElem?_toList, Array.getElem?_toList, Option.map_map]
  exact Option.map_id'

theorem next_of_getElem? (hwidth : g.size.width ≤ 2 ^ 31) (hheight : g.size.height ≤ 2 ^ 31) {i : Nat}
    {a : α} (h : g.cells[i]? = some a) : g.next i = .ok (some ((g.size.position i, a), i + 1)) := by
  have hi := lt_area_of_getElem? h
  have hpositive := Size.width_pos_of_lt_area hi
  have hcolumn : i % g.size.width < g.size.width := Nat.mod_lt i hpositive
  have hrow : i / g.size.width < g.size.height := Nat.div_lt_of_lt_mul hi
  simp only [next, h]
  rw [if_neg (by omega), Position.ofColumnRow_eq (by omega) (by omega)]
  rfl

theorem yields_behind {i : Nat} (h : g.cells[i]? = none) : g.Yields i (g.toList.drop i) := by
  have hlist := getElem?_toList (g := g) i
  rw [h, Option.map_none, List.getElem?_eq_none_iff] at hlist
  rw [List.drop_eq_nil_of_le hlist]
  apply Yields.done
  simp only [next, h]

/--
The cells from the number `i` on are those that the list holds behind its first `i` members. The induction is
on a bound for how many there are.
-/
theorem yields_drop (hwidth : g.size.width ≤ 2 ^ 31) (hheight : g.size.height ≤ 2 ^ 31) {n i : Nat}
    (hn : g.size.area ≤ i + n) : g.Yields i (g.toList.drop i) := by
  induction n generalizing i with
  | zero =>
    apply yields_behind
    rw [Array.getElem?_eq_none_iff, g.size_cells]
    exact hn
  | succ n ih =>
    cases hcell : g.cells[i]? with
    | none => exact yields_behind hcell
    | some a =>
      have hlist := getElem?_toList (g := g) i
      rw [hcell, Option.map_some] at hlist
      obtain ⟨hi, hget⟩ := List.getElem?_eq_some_iff.mp hlist
      rw [List.drop_eq_getElem_cons hi, hget]
      apply Yields.more (next_of_getElem? hwidth hheight hcell)
      apply ih
      omega

/--
Write to one position after the other. Those outside of the grid are passed over.
-/
def setAll (g : Grid α) (writes : List (Position × α)) : Grid α :=
  writes.foldl (fun g write => g.set write.1 write.2) g

theorem size_setAll (writes : List (Position × α)) : (g.setAll writes).size = g.size := by
  induction writes generalizing g with
  | nil => rfl
  | cons write writes ih => exact ih.trans (size_set _ _)

theorem get?_setAll (writes : List (Position × α)) {p : Position} (h : p ∈ g.size)
    : (g.setAll writes).get? p = (writes.reverse.lookup p).or (g.get? p) := by
  induction writes generalizing g with
  | nil => rfl
  | cons write writes ih =>
    obtain ⟨q, a⟩ := write
    have hrest : (g.setAll ((q, a) :: writes)).get? p
        =
      (writes.reverse.lookup p).or ((g.set q a).get? p) := ih (by rwa [size_set])
    have hfirst : (g.set q a).get? p = ([(q, a)].lookup p).or (g.get? p) := by
      by_cases hp : p = q
      · subst hp
        rw [get?_set h, if_pos rfl]
        simp
      · have hlookup : [(q, a)].lookup p = none := by simp [hp]
        rw [hlookup]
        by_cases hq : q ∈ g.size
        · rw [get?_set hq, if_neg hp]
          rfl
        · rw [set_of_notMem hq]
          rfl
    rw [hrest, hfirst, List.reverse_cons, List.lookup_append, Option.or_assoc]

/--
However a grid was filled and written to, it holds one value for each of its cells and for nothing else. To
fill it, `f` is asked for each cell once, row by row. An iteration comes to each cell once, row by row, with
the value that is found there, and never divides by a width of zero. A write to a cell hands back the old
value and changes no other cell, and one outside is refused and changes nothing; so of the writes to a cell
the last one counts.
-/
theorem keeps_every_cell (size : Size) (hwidth : size.width ≤ 2 ^ 31 - 1)
    (hheight : size.height ≤ 2 ^ 31 - 1) (f : Position → StateM σ α) (s : σ)
    (writes : List (Position × α))
    : let made := (build size f).run s
      let g := made.1.setAll writes
      (size.positions.Pairwise Position.Before ∧ ∀ p, p ∈ size.positions ↔ p ∈ size) ∧
      (size.positions.mapM f).run s = (made.1.toList.map Prod.snd, made.2) ∧
      (∀ value : Position → α,
        (build size fun p => pure (value p)).run s = (ofFn size value, s)) ∧
      (g.Yields 0 g.toList ∧ ∀ i, g.next i ≠ .error .divisionByZero) ∧
      (g.toList.map Prod.fst = size.positions ∧ ∀ cell ∈ g.toList, g.get? cell.1 = some cell.2) ∧
      (∀ p, g.get? p = none ↔ p ∉ size) ∧
      (∀ p ∈ size, g.get? p = (writes.reverse.lookup p).or (made.1.get? p)) ∧
      (∀ p ∈ size, ∀ a, ∃ old g', g.replace p a = .ok (old, g') ∧ g.get? p = some old ∧
        g'.size = size ∧ ∀ q, g'.get? q = if q = p then some a else g.get? q) ∧
      ∀ p ∉ size, ∀ a, g.replace p a = .error .outOfRange ∧ g.set p a = g := by
  intro made g
  have hwidth : size.width ≤ 2 ^ 31 := by omega
  have hheight : size.height ≤ 2 ^ 31 := by omega
  have hsize : g.size = size := size_setAll writes
  refine ⟨⟨size.pairwise_positions, fun p => Size.mem_positions⟩, ?_,
    fun value => build_pure hwidth hheight value s, ⟨?_, next_ne_divisionByZero⟩, ⟨?_, ?_⟩, ?_, ?_, ?_,
    ?_⟩
  · rw [map_snd_toList]
    exact mapM_positions hwidth hheight f s
  · exact yields_drop (i := 0) (hsize ▸ hwidth) (hsize ▸ hheight) (Nat.le_add_left _ _)
  · rw [map_fst_toList, hsize]
  · exact fun cell => get?_of_mem_toList
  · intro p
    rw [get?_eq_none_iff, hsize]
  · intro p hp
    exact get?_setAll (g := made.1) writes hp
  · intro p hp a
    rw [← hsize] at hp
    obtain ⟨old, hreplace, hold⟩ := set_of_mem hp a
    exact ⟨old, g.set p a, hreplace, hold, (size_set p a).trans hsize, get?_set hp a⟩
  · intro p hp a
    rw [← hsize] at hp
    exact ⟨replace_eq_error_iff.mpr hp, set_of_notMem hp a⟩

theorem keeps_every_cell_counted
    : let count : Position → StateM Nat Nat := fun _ n => (n, n + 1)
      let made := (build ⟨2, 2⟩ count).run 0
      let g := made.1.setAll [(⟨1, 0⟩, 8), (⟨2, 0⟩, 7), (⟨1, 0⟩, 9)]
      made.2 = 4 ∧ g.toList.map Prod.snd = [0, 9, 2, 3] ∧ g.Yields 0 g.toList ∧
      g.toList.map Prod.fst = (⟨2, 2⟩ : Size).positions ∧ g.set ⟨2, 0⟩ 7 = g := by
  intro count made g
  have hstate : made.2 = 4 := by decide +kernel
  have hvalues : g.toList.map Prod.snd = [0, 9, 2, 3] := by decide +kernel
  obtain ⟨_, _, _, ⟨hyields, _⟩, ⟨hplaces, _⟩, _, _, _, houtside⟩ :=
    keeps_every_cell ⟨2, 2⟩ (by decide) (by decide) count 0 [(⟨1, 0⟩, 8), (⟨2, 0⟩, 7), (⟨1, 0⟩, 9)]
  exact ⟨hstate, hvalues, hyields, hplaces, (houtside ⟨2, 0⟩ (by decide) 7).2⟩

end Grid

end SignalBoard

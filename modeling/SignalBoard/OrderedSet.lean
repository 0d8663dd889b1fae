/-!
This module contains finite sets that remember the order in which their members came in.
-/

namespace SignalBoard

/--
A set that is enumerated in the order of insertion. Its view is `toList`; sets that are built with
the operations below hold no member twice.
-/
structure OrderedSet (α : Type) where
  toList : List α
deriving DecidableEq

namespace OrderedSet

def empty {α : Type} : OrderedSet α := ⟨[]⟩

instance {α : Type} : Membership α (OrderedSet α) where
  mem s a := a ∈ s.toList

@[simp]
theorem toList_empty {α : Type} : (empty : OrderedSet α).toList = [] := rfl

theorem mem_iff {α : Type} {s : OrderedSet α} {a : α} : a ∈ s ↔ a ∈ s.toList :=
  Iff.rfl

@[simp]
theorem notMem_empty {α : Type} (a : α) : a ∉ (empty : OrderedSet α) :=
  List.not_mem_nil

variable {α β : Type} [DecidableEq α] [DecidableEq β]

instance (s : OrderedSet α) (a : α) : Decidable (a ∈ s) :=
  decidable_of_iff _ mem_iff.symm

/--
Put `a` behind all members, unless it is a member already.
-/
def insert (s : OrderedSet α) (a : α) : OrderedSet α :=
  if a ∈ s then s else ⟨s.toList ++ [a]⟩

/--
Take `a` out; the other members keep their order.
-/
def erase (s : OrderedSet α) (a : α) : OrderedSet α :=
  ⟨s.toList.erase a⟩

/--
Insert the elements of a list from front to back.
-/
def insertMany (s : OrderedSet α) (as : List α) : OrderedSet α :=
  as.foldl insert s

/--
The set of the elements of a list, in the order of their first occurrences.
-/
def ofList (as : List α) : OrderedSet α :=
  empty.insertMany as

/--
The members of both sets, those of `s` first.
-/
def union (s t : OrderedSet α) : OrderedSet α :=
  s.insertMany t.toList

/--
The set of the images, in the order of their first occurrences.
-/
def map (f : α → β) (s : OrderedSet α) : OrderedSet β :=
  ofList (s.toList.map f)

theorem toList_insert (s : OrderedSet α) (a : α)
    : (s.insert a).toList = if a ∈ s.toList then s.toList else s.toList ++ [a] := by
  unfold insert
  split <;> simp_all [mem_iff]

@[simp]
theorem toList_erase (s : OrderedSet α) (a : α) : (s.erase a).toList = s.toList.erase a := rfl

theorem mem_insert {s : OrderedSet α} {a b : α} : b ∈ s.insert a ↔ b = a ∨ b ∈ s := by
  simp only [mem_iff, toList_insert]
  split
  · constructor
    · exact Or.inr
    · rintro (rfl | h)
      · assumption
      · exact h
  · simp [or_comm]

/--
A member that is held once is gone after it was taken out.
-/
theorem mem_erase {s : OrderedSet α} (h : s.toList.Nodup) {a b : α}
    : b ∈ s.erase a ↔ b ≠ a ∧ b ∈ s :=
  h.mem_erase_iff

theorem nodup_insert {s : OrderedSet α} (h : s.toList.Nodup) (a : α)
    : (s.insert a).toList.Nodup := by
  rw [toList_insert]
  split
  · exact h
  · rw [List.nodup_append]
    simp_all [List.nodup_cons]
    intro b hb hba
    simp_all

theorem nodup_erase {s : OrderedSet α} (h : s.toList.Nodup) (a : α)
    : (s.erase a).toList.Nodup :=
  h.erase a

@[simp]
theorem insertMany_nil (s : OrderedSet α) : s.insertMany [] = s := rfl

@[simp]
theorem insertMany_cons (s : OrderedSet α) (a : α) (as : List α)
    : s.insertMany (a :: as) = (s.insert a).insertMany as := rfl

theorem mem_insertMany {s : OrderedSet α} {as : List α} {b : α}
    : b ∈ s.insertMany as ↔ b ∈ s ∨ b ∈ as := by
  induction as generalizing s with
  | nil => simp
  | cons a as ih => simp [ih, mem_insert, or_assoc, or_left_comm]

theorem mem_union {s t : OrderedSet α} {a : α} : a ∈ s.union t ↔ a ∈ s ∨ a ∈ t :=
  mem_insertMany

theorem nodup_insertMany {s : OrderedSet α} (h : s.toList.Nodup) (as : List α)
    : (s.insertMany as).toList.Nodup := by
  induction as generalizing s with
  | nil => exact h
  | cons a as ih => exact ih (nodup_insert h a)

@[simp]
theorem mem_ofList {as : List α} {b : α} : b ∈ ofList as ↔ b ∈ as := by
  unfold ofList
  rw [mem_insertMany]
  simp [mem_iff]

theorem nodup_ofList (as : List α) : (ofList as).toList.Nodup :=
  nodup_insertMany List.nodup_nil as

theorem toList_insertMany (s : OrderedSet α) (as : List α)
    : (s.insertMany as).toList = s.toList ++ (as.filter (· ∉ s)).eraseDups := by
  induction as generalizing s with
  | nil => simp
  | cons a as ih =>
    rw [insertMany_cons, ih]
    by_cases ha : a ∈ s
    · have hinsert : s.insert a = s := if_pos ha
      rw [hinsert, List.filter_cons_of_neg (by simpa using ha)]
    · -- `a` comes next, and what follows it and equals it is left out
      have hrest : as.filter (· ∉ s.insert a) = (as.filter (· ∉ s)).filter fun b => !b == a := by
        rw [List.filter_filter]
        congr 1
        funext b
        rw [Bool.eq_iff_iff]
        simp [mem_insert]
      have hinsert : (s.insert a).toList = s.toList ++ [a] := by
        rw [toList_insert, if_neg (fun h => ha (mem_iff.mpr h))]
      rw [hinsert, hrest, List.filter_cons_of_pos (by simpa using ha), List.eraseDups_cons,
        List.append_assoc, List.singleton_append]

theorem toList_ofList (as : List α) : (ofList as).toList = as.eraseDups := by
  rw [ofList, toList_insertMany, List.filter_eq_self.mpr (by simp)]
  rfl

end OrderedSet

end SignalBoard

/-!
This module contains lengths of time in whole nanoseconds.
-/

namespace SignalBoard

def nanosecondsPerSecond : Nat := 1000000000

/--
The largest length of time, which is one nanosecond short of `2 ^ 64` seconds.
-/
def maxNanoseconds : Nat := UInt64.size * nanosecondsPerSecond - 1

structure Duration where
  nanoseconds : Nat
  le_max : nanoseconds ≤ maxNanoseconds
deriving DecidableEq

namespace Duration

def zero : Duration := ⟨0, Nat.zero_le _⟩

/--
The length of time of that many nanoseconds, if it is not too large.
-/
def ofNanoseconds? (n : Nat) : Option Duration :=
  if h : n ≤ maxNanoseconds then some ⟨n, h⟩ else none

/--
The length of time of whole seconds and a rest in nanoseconds, if it is not too large.
-/
def ofParts? (seconds nanoseconds : Nat) : Option Duration :=
  ofNanoseconds? (seconds * nanosecondsPerSecond + nanoseconds)

def seconds (d : Duration) : Nat :=
  d.nanoseconds / nanosecondsPerSecond

/--
The nanoseconds beyond the whole seconds.
-/
def subsecond (d : Duration) : Nat :=
  d.nanoseconds % nanosecondsPerSecond

def add? (d e : Duration) : Option Duration :=
  ofNanoseconds? (d.nanoseconds + e.nanoseconds)

theorem add?_eq_none_iff {d e : Duration}
    : d.add? e = none ↔ maxNanoseconds < d.nanoseconds + e.nanoseconds := by
  unfold add? ofNanoseconds?
  split <;> simp <;> omega

theorem nanoseconds_of_add? {d e sum : Duration} (h : d.add? e = some sum)
    : sum.nanoseconds = d.nanoseconds + e.nanoseconds := by
  unfold add? ofNanoseconds? at h
  split at h
  · cases h
    rfl
  · cases h

end Duration

end SignalBoard

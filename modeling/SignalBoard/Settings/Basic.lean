import SignalBoard.Keytable

/-!
This module contains the settings that an operator can choose for the editor and the history.
-/

namespace SignalBoard

structure Settings where
  keytable : Keytable
  /-- The largest number that counts in a repeat expression. -/
  maxRepeat : Nat
  /-- The number of batches that can be undone. -/
  maxHistory : Nat
deriving DecidableEq

def Settings.default : Settings where
  keytable := .default
  maxRepeat := 1000
  maxHistory := 256

end SignalBoard

/-!
This module contains the blank characters, which are those with the Unicode property `White_Space`,
and the trimming of texts.
-/

namespace SignalBoard

namespace Text

/--
Whether `c` has the property `White_Space`.
-/
def isBlank (c : Char) : Bool :=
  let code := c.toNat
  (9 ≤ code && code ≤ 13) || code == 0x20 || code == 0x85 || code == 0xa0 || code == 0x1680
    || (0x2000 ≤ code && code ≤ 0x200a) || code == 0x2028 || code == 0x2029 || code == 0x202f
    || code == 0x205f || code == 0x3000

/--
Drop the blank characters at the end.
-/
def trimRight (cs : List Char) : List Char :=
  (cs.reverse.dropWhile isBlank).reverse

/--
Drop the blank characters at both ends.
-/
def trimChars (cs : List Char) : List Char :=
  trimRight (cs.dropWhile isBlank)

def trim (text : String) : String :=
  String.ofList (trimChars text.toList)

end Text

end SignalBoard

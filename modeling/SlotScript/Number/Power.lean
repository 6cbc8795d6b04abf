/-!
# Powers

The powers of the two bases numbers are made of: two in the machine formats, ten in decimals and in
text.
-/

namespace SlotScript

/-- Two to the power `n`. -/
def twoTo (n : Nat) : Nat := Nat.pow 2 n

/-- Ten to the power `n`. -/
def tenTo (n : Nat) : Nat := Nat.pow 10 n

end SlotScript

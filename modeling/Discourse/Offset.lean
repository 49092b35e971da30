import Discourse.Fault
/-!
# Offsets

Positions in a text are 64-bit words.  A sum of positions that the data names may pass the largest
word, and that ends the work.  A sum that is no more than the number of tokens or lines of what has
been read always fits, and is taken without a test.
-/

namespace Discourse

/-- The first number that does not fit into 64 bits. -/
def wordLimit : Nat := 18446744073709551616

/-- The sum of two offsets. -/
def addOffset (a b : Nat) : Except Stop Nat :=
  if a + b < wordLimit then .ok (a + b) else .error .overflow

theorem addOffset_of_lt {a b : Nat} (fits : a + b < wordLimit) : addOffset a b = .ok (a + b) :=
  if_pos fits

theorem addOffset_of_le {a b : Nat} (exceeds : wordLimit ≤ a + b) :
    addOffset a b = .error .overflow :=
  if_neg (Nat.not_lt.mpr exceeds)

end Discourse

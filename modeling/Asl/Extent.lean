import Asl.Text

/-!
# Places and runs

A place in a list and the length of a run of characters are kept in a signed
word of 64 bits. The numbers this library computes them from are unbounded,
since a client may hand in any position: so a number can be no place at all,
and a run can be longer than what any memory holds. Both are told apart from
a place that is merely outside the list, and from a run that is empty because
its length is negative.
-/

namespace Asl.Extent

/-- Whether a number is in the range of a word. -/
def fitsWord (n : Int) : Bool := -0x8000000000000000 ≤ n && n < 0x8000000000000000

/-- The wording for a number that is not. -/
def wordMessage : Text := "cannot fit 'int' into an index-sized integer".toList

/-- No run is longer than this: beyond it no memory is left for the text. -/
def longestRun : Int := 0x1000000000

/-- Why there is no run of some length. -/
inductive RunError where
  /-- The length is not in the range of a word. -/
  | unwieldy
  /-- The length is in that range, and beyond every memory. -/
  | exhausting
deriving DecidableEq, Repr

/-- The wording of an error; an exhausted memory is not commented on. -/
def RunError.message : RunError → Text
  | unwieldy => wordMessage
  | exhausting => []

/-- Whether there is a run of some length; a negative length gives an empty
run. -/
def checkRun (length : Int) : Except RunError Unit :=
  if fitsWord length then
    if length ≤ longestRun then .ok () else .error .exhausting
  else .error .unwieldy

end Asl.Extent

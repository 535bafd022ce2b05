/-!
# Character ranges

A class of characters as a list of closed ranges of code points.
-/

namespace HttpDns.Text

/-- Closed ranges of code points. -/
abbrev Ranges := List (Nat × Nat)

namespace Ranges

/-- The code point lies in one of the ranges. -/
def holds (rs : Ranges) (n : Nat) : Bool :=
  rs.any fun (low, high) => low ≤ n && n ≤ high

/-- The ranges follow each other in ascending order without touching. -/
def ascending : Ranges → Bool
  | [] => true
  | [(low, high)] => low ≤ high
  | (low, high) :: (low', high') :: rest =>
    low ≤ high && high + 1 < low' && ascending ((low', high') :: rest)

end Ranges

end HttpDns.Text

/-!
# Membership in a table of runs

A character property is given as an ascending table of runs of code points. Membership is a binary
search.
-/

namespace ClassAtlas.Text

/-- Search for the code point in the runs with index at least `low` and below `high`. Every round
halves the distance, so `rounds` may be any number whose power of two exceeds it. -/
def inRunsBetween (runs : Array (Nat × Nat)) (code : Nat) : (rounds low high : Nat) → Bool
  | 0, _, _ => false
  | rounds + 1, low, high =>
    if low < high then
      let middle := (low + high) / 2
      match runs[middle]? with
      | none => false
      | some (first, last) =>
        if code < first then inRunsBetween runs code rounds low middle
        else if last < code then inRunsBetween runs code rounds (middle + 1) high
        else true
    else false

/-- The code point lies in one of the ascending runs. -/
def inRuns (runs : Array (Nat × Nat)) (code : Nat) : Bool :=
  inRunsBetween runs code (runs.size + 1).log2.succ 0 runs.size

end ClassAtlas.Text

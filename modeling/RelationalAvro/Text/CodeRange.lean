/-!
# Ranges of code points

A property of characters is kept as a list of inclusive ranges of code points. Membership is a plain
scan, so a statement about all characters of a property is a statement about its finitely many rows.
-/

namespace RelationalAvro.Text

/-- The code points from `first` to `last`, both included. -/
structure CodeRange where
  first : Nat
  last : Nat
  deriving DecidableEq, Repr

/-- Does the range hold the code point of `c`? -/
def CodeRange.contains (r : CodeRange) (c : Char) : Bool :=
  decide (r.first ≤ c.toNat) && decide (c.toNat ≤ r.last)

/-- Does some range of `rs` hold the code point of `c`? -/
def inRanges (rs : List CodeRange) (c : Char) : Bool :=
  rs.any (·.contains c)

/-- A range holds the characters from its first to its last code point. -/
theorem CodeRange.contains_iff {r : CodeRange} {c : Char} :
    r.contains c = true ↔ r.first ≤ c.toNat ∧ c.toNat ≤ r.last := by
  simp [CodeRange.contains]

/-- A character has a tabulated property exactly if one of the rows holds it. -/
theorem inRanges_iff {rs : List CodeRange} {c : Char} :
    inRanges rs c = true ↔ ∃ r ∈ rs, r.first ≤ c.toNat ∧ c.toNat ≤ r.last := by
  simp [inRanges, List.any_eq_true, CodeRange.contains_iff]

end RelationalAvro.Text

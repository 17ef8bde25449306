namespace RestRoutes.Text

/-- Ascending, disjoint ranges; both ends belong to a range. -/
abbrev Ranges := List (Nat × Nat)

/-- The search stops at the first range that begins above the code point. -/
def Ranges.has : Ranges → Nat → Bool
  | [], _ => false
  | (lo, hi) :: rest, n => if n < lo then false else n ≤ hi || Ranges.has rest n

end RestRoutes.Text

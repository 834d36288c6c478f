/-
StrategyBench.Number.Power — powers of the bases that numbers are written in.
-/

namespace StrategyBench

/-- Two to the power of `n`. -/
@[inline] def twoTo (n : Nat) : Nat := Nat.pow 2 n

/-- Ten to the power of `n`. -/
@[inline] def tenTo (n : Nat) : Nat := Nat.pow 10 n

end StrategyBench

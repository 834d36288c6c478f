/-
StrategyBench.Text.Split — the parts of a text between separators.
-/

namespace StrategyBench.Text

/-- The parts between separators; there is one more of them than there are separators. -/
def splitOn (sep : Char) : List Char → List (List Char)
  | [] => [[]]
  | c :: cs =>
    match splitOn sep cs with
    | [] => [[c]]
    | p :: ps => if c = sep then [] :: p :: ps else (c :: p) :: ps

end StrategyBench.Text

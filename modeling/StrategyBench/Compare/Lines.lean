/-
StrategyBench.Compare.Lines — the difference of two texts, line by line.

Lines that stay are a longest common subsequence; where a removal and an addition serve equally
well, the removal comes first. Neighbouring lines of one kind form one segment.
-/

namespace StrategyBench.Compare

inductive SegmentKind
  | equal
  | added
  | removed
  deriving DecidableEq, Repr

/-- One or more lines of one kind, joined by newlines. -/
structure Segment where
  kind : SegmentKind
  value : String
  deriving DecidableEq, Repr

/-! ## Lines -/

/-- Cuts at every newline; there is always one line more than newlines. -/
def splitLines : List Char → List (List Char)
  | [] => [[]]
  | c :: cs =>
    if c = '\n' then [] :: splitLines cs
    else
      match splitLines cs with
      | [] => [[c]]
      | l :: ls => (c :: l) :: ls

def linesOf (s : String) : List String := (splitLines s.toList).map String.ofList

/-! ## The table of common lengths -/

/-- One row of the table, from the row below: the lengths for `a :: as` and every rest of `bs`. -/
def tableRow (a : String) : List String → List Nat → List Nat
  | b :: bs, below =>
    let right := tableRow a bs below.tail
    let here := if a = b then below.tail.headD 0 + 1 else max (below.headD 0) (right.headD 0)
    here :: right
  | [], _ => [0]

/-- For each rest of `as` (longest first), the common lengths with every rest of `bs`. -/
def table (bs : List String) : List String → List (List Nat)
  | [] => [List.replicate (bs.length + 1) 0]
  | a :: as =>
    let below := table bs as
    tableRow a bs (below.headD []) :: below

/-! ## The walk -/

/-- The edits, in order. `here` and `below` are the table's rows for `a :: as` and for `as`, each
from the column of the rest of the second list on. -/
def walk : (as bs : List String) → List (List Nat) → List (SegmentKind × String)
  | [], bs, _ => bs.map (SegmentKind.added, ·)
  | as, [], _ => as.map (SegmentKind.removed, ·)
  | a :: as, b :: bs, rows =>
    let here := rows.headD []
    let below := rows.tail
    if a = b then (.equal, a) :: walk as bs (below.map List.tail)
    else if (below.headD []).headD 0 ≥ here.tail.headD 0 then (.removed, a) :: walk as (b :: bs) below
    else (.added, b) :: walk (a :: as) bs (rows.map List.tail)
  termination_by as bs => as.length + bs.length

/-- Joins neighbours of one kind. -/
def merge : List (SegmentKind × String) → List Segment
  | [] => []
  | (k, s) :: rest =>
    match merge rest with
    | [] => [⟨k, s⟩]
    | seg :: segs => if seg.kind = k then ⟨k, s ++ "\n" ++ seg.value⟩ :: segs else ⟨k, s⟩ :: seg :: segs

def diffLines (a b : String) : List Segment :=
  if a = b then (if a.isEmpty then [] else [⟨.equal, a⟩])
  else
    let as := linesOf a
    let bs := linesOf b
    merge (walk as bs (table bs as))

end StrategyBench.Compare

/-
StrategyBench.Store.Rows — rows under keys, in the order of the keys.

A map does not know that a row carries an id of its own: a row can be put under any key, and a change
of a row leaves it under the key that it was under.
-/

namespace StrategyBench

/-- Rows under keys, each key once. -/
@[ext] structure Rows (α : Type) where
  entries : List (Int × α)
  ordered : (entries.map Prod.fst).Pairwise (· < ·)

namespace Rows

variable {α β : Type}

instance : EmptyCollection (Rows α) := ⟨⟨[], .nil⟩⟩

instance : Inhabited (Rows α) := ⟨∅⟩

/-! ## Reading -/

/-- The rows in the order of their keys. -/
def values (m : Rows α) : List α := m.entries.map Prod.snd

def get? (m : Rows α) (k : Int) : Option α := (m.entries.find? (·.1 = k)).map Prod.snd

/-! ## Writing -/

/-- Puts a row under a key, in place of the one that was there. -/
def insert (m : Rows α) (k : Int) (a : α) : Rows α where
  entries := m.entries.filter (·.1 < k) ++ (k, a) :: m.entries.filter (k < ·.1)
  ordered := by
    have hsorted : m.entries.Pairwise fun e e' => e.1 < e'.1 := List.pairwise_map.mp m.ordered
    rw [List.pairwise_map, List.pairwise_append, List.pairwise_cons]
    refine ⟨hsorted.filter _, ⟨fun e he => ?_, hsorted.filter _⟩, fun e he e' he' => ?_⟩
    · exact of_decide_eq_true (List.mem_filter.mp he).2
    · have hbefore : e.1 < k := of_decide_eq_true (List.mem_filter.mp he).2
      rcases List.mem_cons.mp he' with rfl | he'
      · exact hbefore
      · exact Int.lt_trans hbefore (of_decide_eq_true (List.mem_filter.mp he').2)

/-- A change of rows that leaves the keys alone. -/
def mapEntries (f : Int → α → β) (m : Rows α) : Rows β where
  entries := m.entries.map fun e => (e.1, f e.1 e.2)
  ordered := by
    rw [List.map_map]
    exact m.ordered

/-- Changes every row. -/
def map (f : α → β) (m : Rows α) : Rows β := m.mapEntries fun _ a => f a

/-- Changes the row under a key, if there is one. -/
def modify (m : Rows α) (k : Int) (f : α → α) : Rows α := m.mapEntries fun k' a => if k' = k then f a else a

def filter (p : α → Bool) (m : Rows α) : Rows α where
  entries := m.entries.filter (p ·.2)
  ordered := m.ordered.sublist (List.filter_sublist.map Prod.fst)

end Rows
end StrategyBench

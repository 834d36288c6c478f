/-
StrategyBench.Proofs.Lua.Numbering — dropped numbers stay apart from those in use, through every run.

Two changes of a heap bear on which numbers of tables are in use: a new table takes one that has been
dropped, or the next one, and a measurement drops those of all tables that were not reached, each once
(`unmarked_spec`). All else leaves them alone, whatever it does to the tables. So a machine that starts with
an orderly heap has one in every state (`orderly_after`).
-/

import StrategyBench.Proofs.Lua.Evolution

namespace StrategyBench.Lua

namespace Heap

/-! ## Measuring -/

theorem unmarked_spec (marks : Array Bool) :
    (unmarked marks).Nodup ∧ ∀ i ∈ unmarked marks, i < marks.size := by
  -- the places so far, and how many there were
  let seen (n : Nat) (found : List Nat × Nat) : Prop :=
    found.2 = n ∧ found.1.Nodup ∧ ∀ i ∈ found.1, i < n
  have hseen : seen marks.size (marks.foldl (fun (acc : List Nat × Nat) m =>
      (if m then acc.1 else acc.2 :: acc.1, acc.2 + 1)) ([], 0)) := by
    refine Array.foldl_induction seen ⟨rfl, List.nodup_nil, by simp⟩ fun n found hfound => ?_
    obtain ⟨hcount, hdistinct, hwithin⟩ := hfound
    have hlater : ∀ i ∈ found.1, i < n.1 + 1 := fun i hi => Nat.lt_succ_of_lt (hwithin i hi)
    refine ⟨congrArg (· + 1) hcount, ?_⟩
    dsimp only
    split
    · exact ⟨hdistinct, hlater⟩
    · refine ⟨List.nodup_cons.mpr ⟨fun hin => ?_, hdistinct⟩, List.forall_mem_cons.mpr ⟨?_, hlater⟩⟩
      · exact absurd (hwithin _ hin) (by omega)
      · omega
  exact hseen.2

/-- Dropping what a survey of all tables has not reached leaves each number dropped once. -/
theorem orderly_dropUnreached {h : Heap} {s : Survey} (hs : s.tables.size = h.tables.size) :
    (h.dropUnreached s).Orderly := by
  obtain ⟨hdistinct, hwithin⟩ := unmarked_spec s.tables
  have hsize : (h.dropUnreached s).tables.size = s.tables.size := Array.size_mapIdx.trans hs.symm
  exact ⟨hdistinct, fun t ht => hsize ▸ hwithin t ht⟩

/-! ## Changes -/

theorem Orderly.change {h g : Heap} (hg : h.Change g) (ho : h.Orderly) : g.Orderly := by
  cases hg with
  | table t hf => exact ho.same (sameNumbers_modifyTable h t _)
  | made ht => exact (addTable_spec ho _).orderly
  | dropped hs => exact orderly_dropUnreached hs
  | elsewhere htables hfree => exact ho.same ⟨congrArg Array.size htables, hfree⟩

/-- Whatever a run does, dropped numbers stay apart. -/
theorem Orderly.evolves {h g : Heap} (ho : h.Orderly) (hg : h.Evolves g) : g.Orderly :=
  hg.keeps (fun _ _ hchange => Orderly.change hchange) ho

end Heap

namespace Machine

variable {ε : Type}

/-! ## Runs -/

theorem orderly_start {h : Heap} (ho : h.Orderly) (chunk : Chunk) (environment : Nat) :
    (start h chunk environment : Machine ε).heap.Orderly :=
  ho.evolves (evolves_start h chunk environment)

/-- A heap that is orderly stays so through every state of a run. -/
theorem orderly_after (lib : Library ε) (n : Nat) {m : Machine ε} (ho : m.heap.Orderly) :
    (m.after lib n).heap.Orderly :=
  ho.evolves (evolves_after lib n m)

theorem orderly_run (lib : Library ε) (n : Nat) {m : Machine ε} (ho : m.heap.Orderly) :
    (m.run lib n).heap.Orderly :=
  ho.evolves (evolves_run lib n m)

end Machine

end StrategyBench.Lua

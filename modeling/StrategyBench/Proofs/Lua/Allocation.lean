/-
StrategyBench.Proofs.Lua.Allocation — which tables are in use, and which a step on the heap changes.

A new table takes a number that has been dropped, or the next one. Numbers that have been dropped are
all different and are those of tables (`Heap.Orderly`), which every step on the heap keeps; so a new
table is none that is in use, and leaves those as they are (`addTable_spec`). Looking at tables changes
nothing but where a border was last seen (`Program.Looks.of_runs`).
-/

import StrategyBench.Proofs.Lua.Runs

namespace StrategyBench.Lua

/-! ## Tables of a heap -/

/-- The same table, wherever its border was last seen. -/
def Table.Similar (t u : Table) : Prop := u = { t with limit := u.limit }

namespace Table.Similar

variable {t u w : Table}

theorem refl (t : Table) : t.Similar t := rfl

theorem trans (htu : t.Similar u) (huw : u.Similar w) : t.Similar w := by
  rw [Similar, huw, htu]

theorem of_limit (t : Table) (l : Nat) : t.Similar { t with limit := l } := rfl

theorem get (h : t.Similar u) (k : Value) : u.get k = t.get k := by
  rw [h]
  rfl

theorem dense (h : t.Similar u) : u.dense = t.dense := by rw [h]

theorem other (h : t.Similar u) : u.other = t.other := by rw [h]

theorem meta? (h : t.Similar u) : u.meta? = t.meta? := by rw [h]

theorem touch (t : Table) (k : Value) : t.Similar (t.touch k) := by
  unfold Table.touch
  split
  · exact refl t
  · split
    · split
      · exact of_limit t _
      · exact refl t
    · exact refl t

theorem border (t : Table) : t.Similar t.border.2 := by
  unfold Table.border
  dsimp only
  split
  · split
    · exact of_limit t _
    · dsimp only
      split
      · exact of_limit t _
      · exact refl t
  · split
    · exact refl t
    · split
      · exact of_limit t _
      · split
        · exact refl t
        · exact refl t

end Table.Similar

namespace Heap

theorem table_modifyTable (h : Heap) (t u : Nat) (f : Table → Table) :
    (h.modifyTable t f).table u = if t = u ∧ u < h.tables.size then f (h.table u) else h.table u := by
  simp only [modifyTable, table, Array.getD_eq_getD_getElem?, Array.getElem?_modify]
  by_cases ht : t = u
  · by_cases hu : u < h.tables.size
    · rw [if_pos ht, if_pos ⟨ht, hu⟩, Array.getElem?_eq_getElem hu]
      rfl
    · rw [if_pos ht, if_neg fun hand => hu hand.2, Array.getElem?_eq_none (by omega)]
      rfl
  · rw [if_neg ht, if_neg fun hand => ht hand.1]

theorem size_modifyTable (h : Heap) (t : Nat) (f : Table → Table) :
    (h.modifyTable t f).tables.size = h.tables.size := Array.size_modify

/-! ## Numbers in use -/

/-- Numbers that have been dropped are all different, and are those of tables. -/
structure Orderly (h : Heap) : Prop where
  distinct : h.freeTables.Nodup
  within : ∀ t ∈ h.freeTables, t < h.tables.size

/-- A table that has not been dropped. -/
def InUse (h : Heap) (t : Nat) : Prop := t < h.tables.size ∧ t ∉ h.freeTables

theorem orderly_of_none {h : Heap} (hfree : h.freeTables = []) : h.Orderly := ⟨by simp [hfree], by simp [hfree]⟩

/-- A new table is none that was in use, and those are as they were. -/
structure Adds (h : Heap) (table : Table) (t : Nat) (h' : Heap) : Prop where
  orderly : h'.Orderly
  new : ¬h.InUse t
  inUse : h'.InUse t
  table : h'.table t = table
  keeps : ∀ u, h.InUse u → h'.InUse u ∧ h'.table u = h.table u

theorem addTable_spec {h : Heap} (ho : h.Orderly) (table : Table) :
    h.Adds table (h.addTable table).1 (h.addTable table).2 := by
  unfold addTable
  dsimp only
  cases hfree : h.freeTables with
  | nil =>
    have hsize : (h.tables.push table).size = h.tables.size + 1 := Array.size_push ..
    simp only [spend, charge, hfree]
    refine ⟨⟨List.nodup_nil, by simp⟩, fun hin => absurd hin.1 (Nat.lt_irrefl _),
      ⟨by rw [hsize]; omega, by simp⟩, ?_, fun u hu => ⟨⟨?_, by simp⟩, ?_⟩⟩
    · simp [Heap.table, Array.getD_eq_getD_getElem?]
    · rw [hsize]
      have := hu.1
      omega
    · simp [Heap.table, Array.getD_eq_getD_getElem?, Array.getElem?_push, Nat.ne_of_lt hu.1]
  | cons t rest =>
    have hdistinct := ho.distinct
    rw [hfree, List.nodup_cons] at hdistinct
    have hin : t < h.tables.size := ho.within t (by rw [hfree]; exact List.mem_cons_self)
    have hsize : (putAt h.tables t table).size = h.tables.size := Array.size_setIfInBounds
    simp only [spend, charge, hfree]
    refine ⟨⟨hdistinct.2, fun u hu => ?_⟩, fun huse => huse.2 (by rw [hfree]; exact List.mem_cons_self),
      ⟨by rw [hsize]; exact hin, hdistinct.1⟩, ?_, fun u hu => ?_⟩
    · rw [hsize]
      exact ho.within u (by rw [hfree]; exact List.mem_cons_of_mem _ hu)
    · simp [Heap.table, putAt, Array.getD_eq_getD_getElem?, hin]
    · have hu' := hu.2
      rw [hfree, List.mem_cons, not_or] at hu'
      refine ⟨⟨by rw [hsize]; exact hu.1, hu'.2⟩, ?_⟩
      simp [Heap.table, putAt, Array.getD_eq_getD_getElem?, Ne.symm hu'.1]

/-- There are as many tables, and the same have been dropped. -/
structure SameNumbers (h g : Heap) : Prop where
  size : g.tables.size = h.tables.size
  freeTables : g.freeTables = h.freeTables

variable {h g k : Heap}

theorem Orderly.same (ho : h.Orderly) (hg : h.SameNumbers g) : g.Orderly where
  distinct := hg.freeTables ▸ ho.distinct
  within t ht := hg.size ▸ ho.within t (hg.freeTables ▸ ht)

theorem sameNumbers_modifyTable (h : Heap) (t : Nat) (f : Table → Table) : h.SameNumbers (h.modifyTable t f) :=
  ⟨size_modifyTable h t f, rfl⟩

theorem sameNumbers_updateTable (h : Heap) (t : Nat) (f : Table → Table) : h.SameNumbers (h.updateTable t f) :=
  ⟨size_modifyTable h t f, rfl⟩

theorem sameNumbers_addCell (h : Heap) (v : Value) : h.SameNumbers (h.addCell v).2 := by
  unfold addCell
  dsimp only
  split <;> exact ⟨rfl, rfl⟩

/-- Steps on the heap keep the numbers that have been dropped apart from those in use. -/
theorem Orderly.applyOp (ho : h.Orderly) (op : HeapOp) : (Machine.applyOp h op).2.Orderly := by
  cases op with
  | newTable dense keyed => exact (addTable_spec ho _).orderly
  | newCell v => exact ho.same (sameNumbers_addCell h v)
  | get t key => exact ho.same (sameNumbers_modifyTable h t _)
  | set t key v => exact ho.same (sameNumbers_updateTable h t _)
  | border t => exact ho.same (sameNumbers_modifyTable h t _)
  | setMetatable t meta_ => exact ho.same (sameNumbers_modifyTable h t _)
  | _ => exact ho.same ⟨rfl, rfl⟩

end Heap

/-! ## Looking at tables -/

/-- Every table is still there, and the same wherever its border was last seen. -/
structure Heap.Similar (h g : Heap) : Prop where
  size : g.tables.size = h.tables.size
  freeTables : g.freeTables = h.freeTables
  stringMeta : g.stringMeta = h.stringMeta
  table : ∀ t, (h.table t).Similar (g.table t)

namespace Heap.Similar

theorem refl (h : Heap) : h.Similar h := ⟨rfl, rfl, rfl, fun _ => rfl⟩

theorem trans {h g k : Heap} (hg : h.Similar g) (gk : g.Similar k) : h.Similar k :=
  ⟨gk.size.trans hg.size, gk.freeTables.trans hg.freeTables, gk.stringMeta.trans hg.stringMeta,
    fun t => (hg.table t).trans (gk.table t)⟩

theorem modifyTable (h : Heap) (t : Nat) {f : Table → Table} (hf : (h.table t).Similar (f (h.table t))) :
    h.Similar (h.modifyTable t f) where
  size := size_modifyTable h t f
  freeTables := rfl
  stringMeta := rfl
  table u := by
    rw [table_modifyTable]
    split
    · rename_i hu
      rw [← hu.1]
      exact hf
    · exact Table.Similar.refl _

end Heap.Similar

/-- A step on the heap that changes no table. -/
def HeapOp.looks : HeapOp → Bool
  | .get _ _ | .border _ | .next _ _ | .metatable _ | .tableEnd => true
  | _ => false

theorem Heap.similar_applyOp (h : Heap) {op : HeapOp} (hop : op.looks = true) :
    h.Similar (Machine.applyOp h op).2 := by
  cases op with
  | get t key => exact Heap.Similar.modifyTable h t (Table.Similar.touch _ _)
  | border t => exact Heap.Similar.modifyTable h t (Table.Similar.border _)
  | next t key => exact Heap.Similar.refl h
  | metatable v => exact Heap.Similar.refl h
  | tableEnd => exact Heap.Similar.refl h
  | _ => cases hop

namespace Program

variable {ε α β : Type}

/-- A program that calls nothing, changes no table and emits nothing. -/
def Looks : Program ε α → Prop
  | done _ => True
  | fail _ => True
  | heap op next => op.looks = true ∧ ∀ v, (next v).Looks
  | call _ _ _ => False
  | emit _ _ => False

theorem Looks.bind {p : Program ε α} {f : α → Program ε β} (hp : p.Looks) (hf : ∀ a, (f a).Looks) :
    (p >>= f).Looks := by
  induction p with
  | done a => exact hf a
  | fail r => trivial
  | heap op next ih => exact ⟨hp.1, fun v => ih v (hp.2 v)⟩
  | call g args next => exact hp.elim
  | emit e next => exact hp.elim

variable {calls : Callees} {p : Program ε α} {h h' : Heap} {a : α} {es : List ε}

/-- What only looks leaves the tables as they are. -/
theorem Looks.of_runs (hp : p.Looks) (hrun : p.RunsWith calls h a h' es) : h.Similar h' ∧ es = [] := by
  induction p generalizing h with
  | done b =>
    obtain ⟨-, rfl, rfl⟩ := runs_done_iff.mp hrun
    exact ⟨Heap.Similar.refl _, rfl⟩
  | fail r => exact absurd hrun (runs_fail r)
  | heap op next ih =>
    obtain ⟨hsimilar, hnone⟩ := ih _ (hp.2 _) (runs_heap_iff.mp hrun).2
    exact ⟨(h.similar_applyOp hp.1).trans hsimilar, hnone⟩
  | call g args next => exact hp.elim
  | emit e next => exact hp.elim

/-- What only looks does not depend on what calls would come to. -/
theorem Looks.runs (hp : p.Looks) (hrun : p.RunsWith calls h a h' es) : p.Runs h a h' es := by
  induction p generalizing h with
  | done b => exact hrun
  | fail r => exact absurd hrun (runs_fail r)
  | heap op next ih =>
    obtain ⟨hallowed, hrest⟩ := runs_heap_iff.mp hrun
    exact runs_heap_iff.mpr ⟨hallowed, ih _ (hp.2 _) hrest⟩
  | call g args next => exact hp.elim
  | emit e next => exact hp.elim

/-- Whatever a program does that calls nothing, numbers that have been dropped stay apart. -/
theorem RunsWith.orderly (hrun : p.Runs h a h' es) (ho : h.Orderly) : h'.Orderly := by
  induction p generalizing h es with
  | done b =>
    obtain ⟨-, rfl, -⟩ := runs_done_iff.mp hrun
    exact ho
  | fail r => exact absurd hrun (runs_fail r)
  | heap op next ih => exact ih _ (runs_heap_iff.mp hrun).2 (ho.applyOp op)
  | call g args next => exact absurd hrun (runs_call g args next)
  | emit e next ih =>
    obtain ⟨fs, -, hrest⟩ := runs_emit_iff.mp hrun
    exact ih () hrest ho

end Program

end StrategyBench.Lua

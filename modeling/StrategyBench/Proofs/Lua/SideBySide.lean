/-
StrategyBench.Proofs.Lua.SideBySide — two programs that run side by side.

A program may stand for another that answers wherever it does (`Covers`). And two programs may run on heaps
that are the same but for some tables: as long as neither touches those, what the heap answers is the same,
and the heaps stay the same beside them (`Alike`).
-/

import StrategyBench.Proofs.Lua.TableSteps

namespace StrategyBench.Lua

/-! ## Heaps that differ in some tables -/

namespace Heap

/-- The same tables, but for some that are set apart. -/
structure SameBeside (apart : Nat → Prop) (h g : Heap) : Prop where
  size : g.tables.size = h.tables.size
  table : ∀ u, ¬apart u → g.table u = h.table u

namespace SameBeside

variable {apart : Nat → Prop} {h g k : Heap}

theorem refl (apart : Nat → Prop) (h : Heap) : SameBeside apart h h := ⟨rfl, fun _ _ => rfl⟩

theorem trans (hg : SameBeside apart h g) (gk : SameBeside apart g k) : SameBeside apart h k :=
  ⟨gk.size.trans hg.size, fun u hu => (gk.table u hu).trans (hg.table u hu)⟩

theorem symm (hg : SameBeside apart h g) : SameBeside apart g h :=
  ⟨hg.size.symm, fun u hu => (hg.table u hu).symm⟩

theorem mono {apart' : Nat → Prop} (hg : SameBeside apart h g) (hsub : ∀ u, apart u → apart' u) :
    SameBeside apart' h g :=
  ⟨hg.size, fun u hu => hg.table u fun hin => hu (hsub u hin)⟩

/-- A table that is changed in both, to the same if it is not set apart. -/
theorem modifyTable (hg : SameBeside apart h g) {t : Nat} {f f' : Table → Table}
    (hf : ¬apart t → f' (g.table t) = f (h.table t)) :
    SameBeside apart (h.modifyTable t f) (g.modifyTable t f') where
  size := by rw [size_modifyTable, size_modifyTable, hg.size]
  table u hu := by
    rw [table_modifyTable, table_modifyTable, hg.size]
    split
    · rename_i ht
      obtain ⟨rfl, -⟩ := ht
      exact hf hu
    · exact hg.table u hu

theorem modifyTable_alone (h : Heap) (t : Nat) (f : Table → Table) : SameBeside (· = t) h (h.modifyTable t f) where
  size := size_modifyTable h t f
  table u hu := by
    rw [table_modifyTable, if_neg]
    rintro ⟨rfl, -⟩
    exact hu rfl

end SameBeside

end Heap

/-! ## Programs side by side -/

namespace Program

variable {ε α β : Type} {apart : Nat → Prop} {p q : Program ε α}

/-- There is a heap on which a program comes to an answer. -/
def MayAnswer (p : Program ε α) (a : α) : Prop := ∃ h h' es, p.Runs h a h' es

/-- Where both programs answer, on heaps that are the same beside some tables, they answer the same and leave
such heaps. -/
def Alike (apart : Nat → Prop) (p q : Program ε α) : Prop :=
  ∀ ⦃h g⦄, h.SameBeside apart g → ∀ ⦃a h' es⦄, p.Runs h a h' es → ∀ ⦃b g' fs⦄, q.Runs g b g' fs →
    a = b ∧ h'.SameBeside apart g'

/-- Wherever one program answers, the other comes to the same. -/
def Covers (p q : Program ε α) : Prop := ∀ ⦃h a h' es⦄, p.Runs h a h' es → q.Runs h a h' es

theorem Covers.refl (p : Program ε α) : p.Covers p := fun _ _ _ _ hrun => hrun

theorem Covers.bind {f f' : α → Program ε β} (hp : p.Covers q) (hf : ∀ a, p.MayAnswer a → (f a).Covers (f' a)) :
    (p >>= f).Covers (q >>= f') := by
  intro h c h' es hrun
  obtain ⟨a, h₁, fs, gs, hfirst, hrest, rfl⟩ := runs_bind_iff.mp hrun
  exact (hp hfirst).bind (hf a ⟨_, _, _, hfirst⟩ hrest)

theorem alike_done (a : α) : Alike apart (done a : Program ε α) (done a) := by
  intro h g hg b h' es hp c g' fs hq
  obtain ⟨rfl, rfl, -⟩ := runs_done_iff.mp hp
  obtain ⟨rfl, rfl, -⟩ := runs_done_iff.mp hq
  exact ⟨rfl, hg⟩

theorem alike_of_fails (hp : ∀ a, ¬p.MayAnswer a) (q : Program ε α) : Alike apart p q :=
  fun _ _ _ _ _ _ hrun => absurd ⟨_, _, _, hrun⟩ (hp _)

theorem Alike.bind {f f' : α → Program ε β} (hp : Alike apart p q)
    (hf : ∀ a, p.MayAnswer a → q.MayAnswer a → Alike apart (f a) (f' a)) : Alike apart (p >>= f) (q >>= f') := by
  intro h g hg c h' es hrun d g' fs hrun'
  obtain ⟨a, h₁, _, _, hfirst, hrest, -⟩ := runs_bind_iff.mp hrun
  obtain ⟨b, g₁, _, _, hfirst', hrest', -⟩ := runs_bind_iff.mp hrun'
  obtain ⟨rfl, hbeside⟩ := hp hg hfirst hfirst'
  exact hf a ⟨_, _, _, hfirst⟩ ⟨_, _, _, hfirst'⟩ hbeside hrest hrest'

/-- A step on the heap that is answered alike on heaps that are the same beside some tables. -/
theorem alike_heap {op : HeapOp} {next : Value → Program ε α}
    (hop : ∀ h g, h.SameBeside apart g → (Machine.applyOp h op).1 = (Machine.applyOp g op).1 ∧
      (Machine.applyOp h op).2.SameBeside apart (Machine.applyOp g op).2)
    (hnext : ∀ v, Alike apart (next v) (next v)) : Alike apart (heap op next) (heap op next) := by
  intro h g hg a h' es hp b g' fs hq
  obtain ⟨hanswer, hbeside⟩ := hop h g hg
  have hfirst := (runs_heap_iff.mp hp).2
  have hsecond := (runs_heap_iff.mp hq).2
  rw [← hanswer] at hsecond
  exact hnext _ hbeside hfirst hsecond

/-! ## Looking at a table that is not set apart -/

variable {t : Nat} (ht : ¬apart t)

include ht

theorem alike_rawGet (key : Value) : Alike apart (rawGet t key : Program ε Value) (rawGet t key) := by
  refine alike_heap (fun h g hg => ⟨?_, ?_⟩) alike_done
  · show (h.table t).get key.normalKey = (g.table t).get key.normalKey
    rw [hg.table t ht]
  · exact hg.modifyTable fun _ => by rw [hg.table t ht]

theorem alike_next (key : Value) : Alike apart (op (.next t key) : Program ε Value) (op (.next t key)) := by
  refine alike_heap (fun h g hg => ⟨?_, hg⟩) alike_done
  show ((h.table t).next key.normalKey).getD .nil = ((g.table t).next key.normalKey).getD .nil
  rw [hg.table t ht]

theorem alike_border : Alike apart (border t : Program ε Nat) (border t) := by
  refine alike_heap (fun h g hg => ⟨?_, ?_⟩) fun v => alike_done _
  · show Value.ofNat (h.table t).border.1 = .ofNat (g.table t).border.1
    rw [hg.table t ht]
  · exact hg.modifyTable fun _ => by rw [hg.table t ht]

theorem alike_metatable? : Alike apart (metatable? (.table t) : Program ε (Option Nat)) (metatable? (.table t)) := by
  refine alike_heap (fun h g hg => ⟨?_, hg⟩) fun v => ?_
  · show Machine.tableOr (h.table t).meta? = Machine.tableOr (g.table t).meta?
    rw [hg.table t ht]
  · cases v <;> exact alike_done _

end Program

end StrategyBench.Lua

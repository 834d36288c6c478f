/-
StrategyBench.Proofs.Lua.Frames — what steps on the heap leave as it was.

A step changes the table that it is about and may bring a new one into use; all others in use stay so
and are as they were (`Extends`). What a value holds are the tables that can be reached through its
elements and members (`Reaches`); it is unchanged as long as those are (`Unchanged`), and so it is after
anything that keeps all tables (`Unchanged.keeps`).
-/

import StrategyBench.Proofs.Lua.Allocation

namespace StrategyBench.Lua.Heap

/-! ## Changing some tables -/

/-- What was in use is still in use, and is as it was apart from some tables. -/
structure Extends (changed : Nat → Prop) (h h' : Heap) : Prop where
  orderly : h'.Orderly
  inUse : ∀ u, h.InUse u → h'.InUse u
  table : ∀ u, h.InUse u → ¬changed u → h'.table u = h.table u

/-- Tables that have come into use. -/
def New (h h' : Heap) (u : Nat) : Prop := h'.InUse u ∧ ¬h.InUse u

namespace Extends

variable {changed : Nat → Prop} {h h' h'' : Heap}

theorem refl (ho : h.Orderly) : Extends changed h h := ⟨ho, fun _ hu => hu, fun _ _ _ => rfl⟩

theorem trans (hh' : Extends changed h h') (hh'' : Extends changed h' h'') : Extends changed h h'' where
  orderly := hh''.orderly
  inUse u hu := hh''.inUse u (hh'.inUse u hu)
  table u hu hc := (hh''.table u (hh'.inUse u hu) hc).trans (hh'.table u hu hc)

theorem mono {changed' : Nat → Prop} (hh' : Extends changed h h') (hc : ∀ u, changed u → changed' u) :
    Extends changed' h h' :=
  ⟨hh'.orderly, hh'.inUse, fun u hu hn => hh'.table u hu fun hcu => hn (hc u hcu)⟩

/-- What a new table was filled with has changed none that was in use before it. -/
theorem new {table : Table} {t : Nat} {h₁ : Heap} (hh' : Extends (· = t) h h') (ha : h.Adds table t h₁) :
    Extends (fun _ => False) h h' :=
  ⟨hh'.orderly, hh'.inUse, fun u hu _ => hh'.table u hu fun hut => ha.new (hut ▸ hu)⟩

/-- A step that changes a table in use. -/
theorem of_modify {t : Nat} {f : Table → Table} (ho : h.Orderly) (htables : h'.tables = (h.modifyTable t f).tables)
    (hfree : h'.freeTables = h.freeTables) : Extends (· = t) h h' where
  orderly := by
    refine ⟨hfree ▸ ho.distinct, fun u hu => ?_⟩
    rw [htables, size_modifyTable]
    exact ho.within u (hfree ▸ hu)
  inUse u hu := by
    refine ⟨?_, hfree ▸ hu.2⟩
    rw [htables, size_modifyTable]
    exact hu.1
  table u hu hut := by
    have hsame := table_modifyTable h t u f
    rw [if_neg fun hand => hut hand.1.symm] at hsame
    rw [← hsame, Heap.table, Heap.table, htables]

end Extends

section Extends

variable {h h' : Heap}

theorem Adds.extends {table : Table} {t : Nat} (ha : h.Adds table t h') (changed : Nat → Prop) :
    Extends changed h h' :=
  ⟨ha.orderly, fun u hu => (ha.keeps u hu).1, fun u hu _ => (ha.keeps u hu).2⟩

theorem Extends.of_updateTable (ho : h.Orderly) (t : Nat) (f : Table → Table) : Extends (· = t) h (h.updateTable t f) :=
  .of_modify ho rfl rfl

theorem table_updateTable {t : Nat} (ht : h.InUse t) (f : Table → Table) :
    (h.updateTable t f).table t = f (h.table t) := by
  have hsame := h.table_modifyTable t t f
  rw [if_pos ⟨rfl, ht.1⟩] at hsame
  exact hsame

end Extends

/-! ## Keeping all tables -/

/-- All tables in use stay so, and are the same wherever their borders were last seen. -/
def Keeps (h g : Heap) : Prop := ∀ t, h.InUse t → g.InUse t ∧ (h.table t).Similar (g.table t)

theorem Keeps.trans {h g k : Heap} (hg : h.Keeps g) (gk : g.Keeps k) : h.Keeps k := fun t ht =>
  ⟨(gk t (hg t ht).1).1, (hg t ht).2.trans (gk t (hg t ht).1).2⟩

theorem Similar.keeps {h g : Heap} (hg : h.Similar g) : h.Keeps g := fun t ht =>
  ⟨⟨hg.size ▸ ht.1, hg.freeTables ▸ ht.2⟩, hg.table t⟩

theorem Extends.keeps {h g : Heap} (hg : Extends (fun _ => False) h g) : h.Keeps g := fun t ht =>
  ⟨hg.inUse t ht, hg.table t ht id ▸ Table.Similar.refl _⟩

/-! ## What a value holds -/

/-- A table that a value is, or that is somewhere among its elements and members. -/
inductive Reaches (h : Heap) : Value → Nat → Prop
  | self (t : Nat) : Reaches h (.table t) t
  | element {t u : Nat} (i : Nat) (hu : Reaches h ((h.table t).dense.getD i .nil) u) : Reaches h (.table t) u
  | member {t u : Nat} {k v : Value} (hv : (h.table t).other.get? k = some v) (hu : Reaches h v u) :
      Reaches h (.table t) u

/-- All tables that a value holds are in use, and as they were. -/
def Unchanged (h : Heap) (v : Value) (g : Heap) : Prop :=
  ∀ t, h.Reaches v t → g.InUse t ∧ (h.table t).Similar (g.table t)

theorem Unchanged.keeps {h g k : Heap} {v : Value} (hv : h.Unchanged v g) (gk : g.Keeps k) : h.Unchanged v k :=
  fun t ht => ⟨(gk t (hv t ht).1).1, (hv t ht).2.trans (gk t (hv t ht).1).2⟩

end StrategyBench.Lua.Heap

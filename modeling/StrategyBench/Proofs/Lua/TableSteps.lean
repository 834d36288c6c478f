/-
StrategyBench.Proofs.Lua.TableSteps — the steps that programs take on tables, one by one.

For each step that looks at a table: that it changes none, and what it answers. For each step that changes
one or makes one: which heap it goes on with.
-/

import StrategyBench.Proofs.Lua.Frames
import StrategyBench.Proofs.Lua.Tables

namespace StrategyBench.Lua

namespace Program

variable {ε : Type} {h : Heap}

/-! ## Looking at tables -/

theorem looks_rawGet (t : Nat) (key : Value) : (rawGet t key : Program ε Value).Looks := ⟨rfl, fun _ => trivial⟩

theorem looks_border (t : Nat) : (border t : Program ε Nat).Looks := ⟨rfl, fun _ => trivial⟩

theorem looks_metatable? (v : Value) : (metatable? v : Program ε (Option Nat)).Looks :=
  ⟨rfl, fun m => by cases m <;> trivial⟩

theorem looks_tableCount : (tableCount : Program ε Nat).Looks := ⟨rfl, fun n => by cases n <;> trivial⟩

theorem runs_rawGet {t : Nat} {key v : Value} (hkey : key.normalKey = key) (hv : (h.table t).get key = v) :
    (rawGet t key : Program ε Value).Runs h v (h.modifyTable t (·.touch key)) [] := by
  refine runs_heap_iff.mpr ⟨rfl, ?_⟩
  rw [Machine.applyOp, hkey, hv]
  exact runs_done

theorem similar_rawGet (h : Heap) (t : Nat) (key : Value) : h.Similar (h.modifyTable t (·.touch key)) :=
  .modifyTable h t (Table.Similar.touch _ _)

theorem runs_border (t : Nat) :
    (border t : Program ε Nat).Runs h (natOf (.ofNat (h.table t).border.1))
      (h.modifyTable t fun _ => (h.table t).border.2) [] :=
  runs_heap_iff.mpr ⟨rfl, runs_done⟩

theorem similar_border (h : Heap) (t : Nat) : h.Similar (h.modifyTable t fun _ => (h.table t).border.2) :=
  .modifyTable h t (Table.Similar.border _)

theorem runs_metatable? (t : Nat) :
    (metatable? (.table t) : Program ε (Option Nat)).Runs h (h.table t).meta? h [] := by
  refine runs_heap_iff.mpr ⟨rfl, ?_⟩
  have hanswer : (Machine.applyOp h (.metatable (.table t))).1 = Machine.tableOr (h.table t).meta? := rfl
  rw [hanswer]
  cases (h.table t).meta? with
  | none => exact runs_done
  | some id => exact runs_done

theorem runs_tableCount : (tableCount : Program ε Nat).Runs h h.tables.size h [] :=
  runs_heap_iff.mpr ⟨rfl, runs_done⟩

theorem runs_next {t : Nat} {key next : Value} (hnext : (h.table t).next key.normalKey = some next) :
    (op (.next t key) : Program ε Value).Runs h next h [] := by
  have hallowed : Machine.refusal? h (.next t key) = none := by
    rw [Machine.refusal?, hnext]
  refine runs_heap_iff.mpr ⟨hallowed, ?_⟩
  have hanswer : (Machine.applyOp h (.next t key)).1 = next := by
    rw [Machine.applyOp, hnext]
    rfl
  rw [hanswer]
  exact runs_done

/-! ## Changing and making tables -/

theorem runs_rawSet {t : Nat} {key v : Value} (hkey : Machine.keyRefusal key = none) :
    (rawSet t key v : Program ε Unit).Runs h () (h.updateTable t (·.set key.normalKey v)) [] :=
  runs_heap_iff.mpr ⟨hkey, rfl⟩

theorem runs_setMetatable (t : Nat) (meta_ : Option Nat) :
    (op (.setMetatable t meta_) : Program ε Value).Runs h .nil (h.modifyTable t ({ · with meta? := meta_ })) [] :=
  runs_heap_iff.mpr ⟨rfl, runs_done⟩

/-- A new table is made for so many elements and members. -/
theorem runs_newTable (ho : h.Orderly) (dense keyed : Nat) :
    ∃ t h', (newTable dense keyed : Program ε Nat).Runs h t h' [] ∧
      h.Adds { dense := Array.replicate dense .nil, limit := dense, capacity := Table.roomFor keyed } t h' := by
  have hadds := Heap.addTable_spec ho ((default : Table).resize dense keyed)
  rw [Table.resize_default] at hadds
  refine ⟨_, _, ?_, hadds⟩
  rw [← Table.resize_default]
  rfl

end Program

/-! ## Looking up -/

/-- What a table itself has under a key is found. -/
theorem Operation.runs_index_found {ε : Type} {h : Heap} {t : Nat} {key v : Value} (hkey : key.normalKey = key)
    (hv : (h.table t).get key = v) (hpresent : v.isNil = false) :
    ∃ g, (index (.table t) key : Program ε Value).Runs h v g [] ∧ h.Similar g := by
  refine ⟨h.modifyTable t (·.touch key), (Program.runs_rawGet hkey hv).bind ?_, Program.similar_rawGet h t key⟩
  dsimp only
  rw [hpresent]
  exact Program.runs_done

/-- What a table without a metatable does not have is not found. -/
theorem Operation.runs_index_absent {ε : Type} {h : Heap} {t : Nat} {key : Value} (hkey : key.normalKey = key)
    (hnone : (h.table t).get key = .nil) (hmeta : (h.table t).meta? = none) :
    ∃ g, (index (.table t) key : Program ε Value).Runs h .nil g [] ∧ h.Similar g := by
  have hlooked := Program.similar_rawGet h t key
  have hhandler : (Program.metamethod (.table t) "__index" : Program ε Value).Runs
      (h.modifyTable t (·.touch key)) .nil (h.modifyTable t (·.touch key)) [] := by
    refine (Program.runs_metatable? t).bind ?_
    rw [(hlooked.table t).meta?, hmeta]
    exact Program.runs_done
  exact ⟨_, (Program.runs_rawGet hkey hnone).bind (hhandler.bind Program.runs_done), hlooked⟩

end StrategyBench.Lua

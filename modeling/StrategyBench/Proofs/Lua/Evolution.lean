/-
StrategyBench.Proofs.Lua.Evolution — what a run can do to the tables of a heap.

A step changes one table (`Table.Change`), makes a new one, or drops the tables that a measurement has not
reached; all else leaves the tables alone (`Heap.Change`). So what each of these changes keeps holds in every
state of a run (`evolves_after`): which numbers are in use, and that keys are in the parts where they belong
(`Heap.Sound.evolves`).
-/

import Mathlib.Logic.Relation
import StrategyBench.Proofs.Lua.SoundTables

namespace StrategyBench.Lua

/-! ## Changes -/

/-- How a step changes a table. -/
inductive Table.Change : Table → Table → Prop
  /-- A table that is looked at may have its border seen elsewhere. -/
  | looked {t u : Table} (hlooked : t.Similar u) : Change t u
  | marked (t : Table) (meta_ : Option Nat) : Change t { t with meta? := meta_ }
  | put (t : Table) {key : Value} (hallowed : Machine.keyRefusal key = none) (v : Value) :
    Change t (t.set key.normalKey v)
  | filled (t : Table) (start : Nat) (values : List Value) : Change t (t.setFrom start values)

namespace Heap

/-- What a step does to the tables of a heap. -/
inductive Change : Heap → Heap → Prop
  | table (h : Heap) (t : Nat) {f : Table → Table} (hf : (h.table t).Change (f (h.table t))) :
    Change h (h.modifyTable t f)
  | made (h : Heap) {t : Table} (ht : t.Sound) : Change h (h.addTable t).2
  | dropped (h : Heap) {s : Survey} (hs : s.tables.size = h.tables.size) : Change h (h.dropUnreached s)
  | elsewhere {h g : Heap} (htables : g.tables = h.tables) (hfree : g.freeTables = h.freeTables) : Change h g

/-- What any number of steps do. -/
def Evolves : Heap → Heap → Prop := Relation.ReflTransGen Change

namespace Evolves

variable {h g k : Heap}

theorem refl (h : Heap) : h.Evolves h := Relation.ReflTransGen.refl

theorem of_change (hg : h.Change g) : h.Evolves g := Relation.ReflTransGen.single hg

theorem trans (hg : h.Evolves g) (gk : g.Evolves k) : h.Evolves k := Relation.ReflTransGen.trans hg gk

/-- Nothing but the tables counts. -/
theorem elsewhere (htables : g.tables = h.tables) (hfree : g.freeTables = h.freeTables) : h.Evolves g :=
  of_change (.elsewhere htables hfree)

/-- What changes and chains of them keep, all of an evolution keeps. -/
theorem keeps {P : Heap → Prop} (hstep : ∀ h g, h.Change g → P h → P g) (hg : h.Evolves g) (hh : P h) : P g := by
  induction hg with
  | refl => exact hh
  | tail _ hchange ih => exact hstep _ _ hchange ih

end Evolves

theorem evolves_modifyTable (h : Heap) (t : Nat) {f : Table → Table} (hf : (h.table t).Change (f (h.table t))) :
    h.Evolves (h.modifyTable t f) := .of_change (.table h t hf)

theorem evolves_updateTable (h : Heap) (t : Nat) {f : Table → Table} (hf : (h.table t).Change (f (h.table t))) :
    h.Evolves (h.updateTable t f) := (evolves_modifyTable h t hf).trans (.elsewhere rfl rfl)

theorem evolves_newTable (h : Heap) (dense keyed : Nat) :
    h.Evolves (h.addTable ((default : Table).resize dense keyed)).2 :=
  .of_change (.made h (Table.sound_empty.resize dense keyed))

theorem evolves_addCell (h : Heap) (v : Value) : h.Evolves (h.addCell v).2 := by
  unfold addCell
  dsimp only
  split <;> exact .elsewhere rfl rfl

theorem evolves_addClosure (h : Heap) (c : Closure) : h.Evolves (h.addClosure c).2 := by
  unfold addClosure
  dsimp only
  split <;> exact .elsewhere rfl rfl

/-- A step on the heap that is not refused. -/
theorem evolves_applyOp {h : Heap} {op : HeapOp} (hallowed : Machine.refusal? h op = none) :
    h.Evolves (Machine.applyOp h op).2 := by
  cases op with
  | newTable dense keyed => exact evolves_newTable h dense keyed
  | newCell v => exact evolves_addCell h v
  | get t key => exact evolves_modifyTable h t (.looked (Table.Similar.touch _ _))
  | set t key v => exact evolves_updateTable h t (.put _ hallowed v)
  | border t => exact evolves_modifyTable h t (.looked (Table.Similar.border _))
  | setMetatable t meta_ => exact evolves_modifyTable h t (.marked _ meta_)
  | _ => exact .elsewhere rfl rfl

/-! ## Measuring -/

section Survey

theorem visitString_tables (b : ByteArray) (s : Survey) : (visitString b s).tables = s.tables := by
  unfold visitString
  split <;> rfl

theorem size_visitValue (v : Value) (work : List Value) (s : Survey) :
    (visitValue v work s).2.tables.size = s.tables.size := by
  unfold visitValue
  split
  · rw [visitString_tables]
  · split
    · rfl
    · exact Array.size_setIfInBounds
  · split <;> rfl
  · dsimp only
    rw [visitString_tables, visitString_tables]
  · rfl

theorem size_visitCell (h : Heap) (id : Nat) (work : List Value) (s : Survey) :
    (visitCell h id work s).2.tables.size = s.tables.size := by
  unfold visitCell
  split
  · rfl
  · exact size_visitValue _ _ _

/-- What visits one thing after the other marks no places beyond those there are. -/
theorem size_foldl {α : Type} {visit : List Value × Survey → α → List Value × Survey}
    (hvisit : ∀ acc a, (visit acc a).2.tables.size = acc.2.tables.size) (xs : List α)
    (acc : List Value × Survey) : (xs.foldl visit acc).2.tables.size = acc.2.tables.size := by
  induction xs generalizing acc with
  | nil => rfl
  | cons x xs ih => exact (ih _).trans (hvisit acc x)

theorem size_visitAll (vs : Array Value) (work : List Value) (s : Survey) :
    (visitAll vs work s).2.tables.size = s.tables.size := by
  unfold visitAll
  rw [← Array.foldl_toList]
  exact size_foldl (fun _ _ => size_visitValue _ _ _) _ _

theorem size_follow (h : Heap) (fuel : Nat) (work : List Value) (s : Survey) :
    (follow h fuel work s).tables.size = s.tables.size := by
  induction fuel generalizing work s with
  | zero => rfl
  | succ fuel ih =>
    cases work with
    | nil => rfl
    | cons v work =>
      cases v with
      | table id =>
        rw [follow]
        have hmembers : ∀ (acc : List Value × Survey) (e : Value × Value),
            (if e.2.isNil then acc else
              visitValue e.2 (visitValue e.1 acc.1 acc.2).1 (visitValue e.1 acc.1 acc.2).2).2.tables.size =
              acc.2.tables.size := by
          intro acc e
          split
          · rfl
          · rw [size_visitValue, size_visitValue]
        simp only [Std.TreeMap.foldl_eq_foldl_toList]
        cases (h.table id).meta? with
        | none =>
          refine (ih _ _).trans ((size_foldl hmembers _ _).trans ?_)
          exact size_visitAll _ _ _
        | some m =>
          refine (ih _ _).trans ((size_visitValue _ _ _).trans ((size_foldl hmembers _ _).trans ?_))
          exact size_visitAll _ _ _
      | closure id =>
        rw [follow, ← Array.foldl_toList]
        exact (ih _ _).trans (size_foldl (fun _ _ => size_visitCell _ _ _ _) _ _)
      | _ => exact ih _ _

theorem size_survey (h : Heap) (roots : List Value) (cells : List Nat) (base : Nat) :
    (h.survey roots cells base).tables.size = h.tables.size := by
  refine (size_follow _ _ _ _).trans ((size_foldl (fun _ _ => size_visitCell _ _ _ _) _ _).trans ?_)
  refine (size_foldl (fun _ _ => size_visitValue _ _ _) _ _).trans ?_
  exact Array.size_replicate

end Survey

end Heap

namespace Machine

variable {ε : Type}

open Heap (Evolves)

theorem evolves_measure (lib : Library ε) (m : Machine ε) : m.heap.Evolves (m.measure lib).heap := by
  unfold measure
  extract_lets frames values cells survey heap
  dsimp only
  have hmeasured : m.heap.Evolves heap := .elsewhere rfl rfl
  split
  · exact hmeasured.trans (.of_change (.dropped _ (Heap.size_survey _ _ _ _)))
  · exact hmeasured

/-! ## Steps of a machine -/

theorem evolves_stop (m : Machine ε) (fault : Fault) : m.heap.Evolves (m.stop fault).heap := by
  unfold stop
  split <;> exact .refl _

theorem evolves_raise (m : Machine ε) (r : Raise) : m.heap.Evolves (m.raise r).heap := by
  cases r with
  | value v level =>
    cases v with
    | str s => exact evolves_stop m _
    | failure e => exact evolves_stop m _
    | _ => exact .refl _
  | _ => exact evolves_stop m _

theorem evolves_raiseIn (m : Machine ε) (f : Frame) (r : Raise) : m.heap.Evolves (m.raiseIn f r).heap :=
  evolves_raise (m.suspend f .discard) r

theorem evolves_enter (m : Machine ε) (c : Closure) (args : List Value) :
    m.heap.Evolves (m.enter c args).heap := by
  unfold enter
  dsimp only
  split
  · exact evolves_stop m _
  · split <;> exact .elsewhere rfl rfl

theorem evolves_callValue (lib : Library ε) (m : Machine ε) (f : Value) (args : List Value) :
    m.heap.Evolves (callValue lib m f args).heap := by
  unfold callValue
  split
  · exact evolves_enter m _ _
  · exact .elsewhere rfl rfl
  · split
    · exact evolves_enter m _ _
    · exact .elsewhere rfl rfl
    · exact evolves_stop m _

theorem evolves_tailCall (lib : Library ε) (m : Machine ε) (f : Frame) (g : Value) (args : List Value) :
    m.heap.Evolves (tailCall lib m f g args).heap := by
  unfold tailCall
  split
  · exact evolves_enter { m with slots := m.slots - f.size, running := .done [] } _ _
  · exact evolves_callValue lib (m.suspend f .answer) _ _
  · exact evolves_callValue lib (m.suspend f .answer) _ _

theorem evolves_answer (m : Machine ε) (f : Frame) (results : List Value) :
    m.heap.Evolves (m.answer f results).heap := by
  unfold answer
  split <;> exact .refl _

theorem evolves_unwindFrame (m : Machine ε) (f : Frame) (fault : Fault) :
    m.heap.Evolves (m.unwindFrame f fault).heap := by
  unfold unwindFrame
  split <;> exact .refl _

theorem evolves_unwind (m : Machine ε) (w : Waiting ε) (fault : Fault) :
    m.heap.Evolves (m.unwind w fault).heap := by
  cases w with
  | program p next reserved => exact .elsewhere rfl rfl
  | _ => exact evolves_unwindFrame m _ _

theorem evolves_resume (m : Machine ε) (w : Waiting ε) (results : List Value) :
    m.heap.Evolves (m.resume w results).heap := by
  cases w with
  | script f r => cases r <;> exact .refl _
  | program p next reserved => exact .elsewhere rfl rfl
  | leaving f answers => exact evolves_answer m f _
  | failing f fault => exact evolves_unwindFrame m f _

theorem evolves_callFrom (lib : Library ε) (m : Machine ε) (p : Purpose)
    (next : List Value → Program ε (List Value)) (f : Value) (args : List Value) :
    m.heap.Evolves (callFrom lib m p next f args).heap := by
  unfold callFrom
  extract_lets waiting
  split
  · exact evolves_stop waiting _
  · exact evolves_callValue lib waiting _ _

theorem evolves_finish (m : Machine ε) (p : Purpose) (results : List Value) :
    m.heap.Evolves (m.finish p results).heap := by
  unfold finish
  extract_lets heap released
  have hreleased : m.heap.Evolves released.heap := by
    unfold released
    split <;> exact .elsewhere rfl rfl
  clear_value released
  split
  · exact hreleased.trans (evolves_stop _ _)
  · exact hreleased

theorem evolves_reserveFor {lib : Library ε} {m m' : Machine ε} {bytes : Nat} (h : reserveFor lib m bytes = some m') :
    m.heap.Evolves m'.heap := by
  unfold reserveFor at h
  extract_lets measured reserved at h
  have hmeasured : m.heap.Evolves measured.heap := by
    unfold measured
    split
    · exact evolves_measure lib m
    · exact .refl _
  clear_value measured
  split at h
  · cases h
  · obtain rfl := Option.some.inj h
    exact hmeasured.trans (.elsewhere rfl rfl)

theorem evolves_advance (lib : Library ε) (m : Machine ε) (p : Purpose) (rest : Program ε (List Value)) :
    m.heap.Evolves (advance lib m p rest).heap := by
  cases rest with
  | done results => exact evolves_finish m p results
  | fail r => exact evolves_raise { m with running := .program p (.done []) } r
  | call f args next => exact evolves_callFrom lib m p next f args
  | emit e next => exact .elsewhere rfl rfl
  | heap op next =>
    cases op with
    | reserve bytes =>
      unfold advance
      dsimp only
      split
      · rename_i m' h
        have hreserved : m.heap.Evolves m'.heap :=
          evolves_reserveFor (m := { m with running := .program p (.done []) }) h
        exact hreserved
      · exact evolves_raise { m with running := .program p (.done []) } _
    | _ =>
      unfold advance
      dsimp only
      split
      · exact evolves_raise { m with running := .program p (.done []) } _
      · rename_i hallowed
        have hspent : m.heap.Evolves (m.heap.spend Heap.programSteps) := .elsewhere rfl rfl
        exact hspent.trans (Heap.evolves_applyOp hallowed)

theorem evolves_indexInto (m : Machine ε) (f : Frame) (dst : Reg) (o key : Value) :
    m.heap.Evolves (m.indexInto f dst o key).heap := by
  unfold indexInto
  split
  · dsimp only
    split
    · exact .refl _
    · split
      · exact .refl _
      · exact Heap.evolves_modifyTable _ _ (.looked (Table.Similar.touch _ _))
  · exact .refl _

theorem evolves_storeAt (m : Machine ε) (f : Frame) (o key value : Value) :
    m.heap.Evolves (m.storeAt f o key value).heap := by
  unfold storeAt
  split
  · split
    · exact .refl _
    · split
      · exact evolves_raiseIn m f _
      · rename_i hallowed
        exact Heap.evolves_updateTable _ _ (.put _ hallowed _)
  · exact .refl _

theorem evolves_startLoop (m : Machine ε) (f : Frame) (base : Reg) (exit : Nat) :
    m.heap.Evolves (m.startLoop f base exit).heap := by
  unfold startLoop
  split
  · exact evolves_raiseIn m f _
  · exact evolves_raiseIn m f _
  all_goals exact .refl _

theorem evolves_markClosing (m : Machine ε) (f : Frame) (r : Reg) (v : Value) (name : ByteArray) :
    m.heap.Evolves (m.markClosing f r v name).heap := by
  unfold markClosing
  split
  · exact .refl _
  · split
    · exact evolves_raiseIn m f _
    · exact .refl _

theorem evolves_closeFrom (m : Machine ε) (f : Frame) (r : Reg) :
    m.heap.Evolves (m.closeFrom f r).heap := by
  unfold closeFrom
  split
  · split <;> exact .refl _
  · exact .refl _

theorem evolves_arithInto (m : Machine ε) (f : Frame) (op : ArithOp) (dst : Reg) (a b : Value) :
    m.heap.Evolves (m.arithInto f op dst a b).heap := by
  unfold arithInto
  split <;> exact .refl _

theorem evolves_compareAt (m : Machine ε) (f : Frame) (c : Comparison) (a b : Value) (when_ : Bool)
    (target : Nat) : m.heap.Evolves (m.compareAt f c a b when_ target).heap := by
  unfold compareAt
  cases c with
  | eq =>
    dsimp only
    split
    · split <;> exact .refl _
    · exact .refl _
  | _ =>
    dsimp only
    split <;> exact .refl _

theorem evolves_lengthInto (m : Machine ε) (f : Frame) (dst : Reg) (v : Value) :
    m.heap.Evolves (m.lengthInto f dst v).heap := by
  unfold lengthInto
  split
  · exact .refl _
  · split
    · exact .refl _
    · exact Heap.evolves_modifyTable _ _ (.looked (Table.Similar.border _))
  · exact .refl _

theorem evolves_execute (lib : Library ε) (m : Machine ε) (f : Frame) : m.heap.Evolves (execute lib m f).heap := by
  unfold execute
  extract_lets i f
  clear_value i f
  cases i with
  | newTable dst dense keyed => exact Heap.evolves_newTable _ _ _
  | newCell r => exact Heap.evolves_addCell _ _
  | closure dst function => exact Heap.evolves_addClosure _ _
  | setCell r src =>
    dsimp only
    split <;> exact .elsewhere rfl rfl
  | setList t first count start =>
    dsimp only
    split
    · have hspent (steps : Nat) : m.heap.Evolves (m.heap.spend steps) := .elsewhere rfl rfl
      exact (hspent _).trans (Heap.evolves_updateTable _ _ (.filled _ _ _))
    · exact .refl _
  | index dst o k => exact evolves_indexInto m f _ _ _
  | setIndex o k v => exact evolves_storeAt m f _ _ _
  | method dst o name => exact evolves_indexInto m _ _ _ _
  | arith op dst a b => exact evolves_arithInto m f _ _ _ _
  | length dst a => exact evolves_lengthInto m f _ _
  | compare c a b when_ target => exact evolves_compareAt m f _ _ _ _ _
  | call base arguments results => exact evolves_callValue lib (m.suspend f _) _ _
  | tailCall base arguments => exact evolves_tailCall lib m f _ _
  | ret first count => exact evolves_answer m f _
  | forPrepare base exit => exact evolves_startLoop m f _ _
  | markClose r value name => exact evolves_markClosing m f _ _ _
  | close r => exact evolves_closeFrom m f _
  -- the others touch no object, or only a cell
  | _ => exact .elsewhere rfl rfl

theorem evolves_proceed (lib : Library ε) (m : Machine ε) : m.heap.Evolves (m.proceed lib).heap := by
  unfold proceed
  split
  · exact evolves_execute lib { m with running := .done [] } _
  · exact evolves_advance lib { m with running := .done [] } _ _
  · split
    · exact .refl _
    · rename_i w rest _
      exact evolves_resume { m with waiting := rest } w _
  · split
    · exact .refl _
    · rename_i w rest _
      exact evolves_unwind { m with waiting := rest } w _

theorem evolves_step (lib : Library ε) (m : Machine ε) : m.heap.Evolves (m.step lib).heap := by
  unfold step
  split
  · have hmeasured := evolves_measure lib m
    dsimp only
    split
    · unfold outOfMemory
      split
      · exact hmeasured.trans (evolves_raiseIn _ _ _)
      · exact hmeasured.trans (evolves_raise _ _)
    · exact hmeasured.trans (evolves_proceed lib _)
  · exact evolves_proceed lib m

/-! ## Runs -/

theorem evolves_start (h : Heap) (chunk : Chunk) (environment : Nat) :
    h.Evolves (start h chunk environment : Machine ε).heap :=
  evolves_enter { heap := h, chunk := chunk } _ _

theorem evolves_after (lib : Library ε) (n : Nat) (m : Machine ε) : m.heap.Evolves (m.after lib n).heap := by
  induction n generalizing m with
  | zero => exact .refl _
  | succ n ih => exact (evolves_step lib m).trans (ih (m.step lib))

theorem evolves_run (lib : Library ε) (n : Nat) (m : Machine ε) : m.heap.Evolves (m.run lib n).heap := by
  obtain ⟨k, hk⟩ := run_eq_after lib n m
  rw [hk]
  exact evolves_after lib k m

end Machine

/-! ## Sound heaps -/

theorem Table.Sound.change {t u : Table} (hu : t.Change u) (ht : t.Sound) : u.Sound := by
  cases hu with
  | looked hlooked => exact hlooked.sound ht
  | marked meta_ => exact ht.of_entries rfl fun _ => .inl
  | put hallowed v => exact ht.set (Value.isKey_normalKey hallowed) v
  | filled start values => exact ht.setFrom start values

namespace Heap

/-- Each table has its keys where they belong. -/
def Sound (h : Heap) : Prop := ∀ t, (h.table t).Sound

theorem sound_of_forall {h : Heap} (hall : ∀ t ∈ h.tables, t.Sound) : h.Sound := by
  intro t
  rw [table, Array.getD_eq_getD_getElem?]
  cases hget : h.tables[t]? with
  | none => exact Table.sound_empty
  | some u => exact hall u (Array.mem_of_getElem? hget)

theorem Sound.mem {h : Heap} (hh : h.Sound) {t : Table} (ht : t ∈ h.tables) : t.Sound := by
  obtain ⟨i, hi, rfl⟩ := Array.mem_iff_getElem.mp ht
  have hsound := hh i
  rwa [table, Array.getD_eq_getD_getElem?, Array.getElem?_eq_getElem hi] at hsound

theorem Sound.addTable {h : Heap} (hh : h.Sound) {t : Table} (ht : t.Sound) : (h.addTable t).2.Sound := by
  refine sound_of_forall fun u hu => ?_
  unfold Heap.addTable at hu
  dsimp only at hu
  split at hu
  · rcases Array.mem_or_eq_of_mem_setIfInBounds hu with hu | rfl
    · exact hh.mem hu
    · exact ht
  · rcases Array.mem_push.mp hu with hu | rfl
    · exact hh.mem hu
    · exact ht

theorem Sound.change {h g : Heap} (hg : h.Change g) (hh : h.Sound) : g.Sound := by
  cases hg with
  | table t hf =>
    intro u
    rw [table_modifyTable]
    split
    · rename_i hu
      exact hu.1 ▸ Table.Sound.change hf (hh t)
    · exact hh u
  | made ht => exact hh.addTable ht
  | dropped hs =>
    refine sound_of_forall fun u hu => ?_
    obtain ⟨i, hi, rfl⟩ := Array.mem_mapIdx.mp hu
    split
    · exact hh.mem (Array.getElem_mem hi)
    · exact Table.sound_empty
  | elsewhere htables hfree => exact sound_of_forall fun t ht => hh.mem (htables ▸ ht)

/-- Whatever a run does, keys stay in the parts where they belong. -/
theorem Sound.evolves {h g : Heap} (hh : h.Sound) (hg : h.Evolves g) : g.Sound :=
  hg.keeps (fun _ _ hchange => Sound.change hchange) hh

end Heap

end StrategyBench.Lua

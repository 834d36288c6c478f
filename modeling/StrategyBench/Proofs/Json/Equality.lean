/-
StrategyBench.Proofs.Json.Equality — when two JSON values are equal.

Equality is that of the data: objects are the same map from names to values (`Alike`), whatever order
their members stand in. As members in increasing order can stand in one order only, comparing them
place by place decides it (`same_iff_alike`).
-/

import Mathlib.Data.List.Forall2
import StrategyBench.Field.Basic
import StrategyBench.Proofs.Json.Ordered

namespace StrategyBench

namespace Json

/-- Equality as data: an integer is no float, the two zeros are one number, and an object is the map
from its names to their values. -/
inductive Alike : Json → Json → Prop
  | null : Alike .null .null
  | bool (b : Bool) : Alike (.bool b) (.bool b)
  | int (i : Int) : Alike (.int i) (.int i)
  | float {x y : Double} (h : x = y ∨ x.isZero ∧ y.isZero) : Alike (.float x) (.float y)
  | str (s : String) : Alike (.str s) (.str s)
  | arr {as bs : List Json} (h : List.Forall₂ Alike as bs) : Alike (.arr as) (.arr bs)
  | obj {as bs : List (String × Json)} (h : ∀ k, Option.Rel Alike (as.lookup k) (bs.lookup k)) :
    Alike (.obj as) (.obj bs)

/-! ## Symmetry -/

mutual
theorem same_comm (a b : Json) : a.same b = b.same a := by
  cases a <;> cases b <;> try rfl
  case bool.bool a b => exact BEq.comm
  case int.int a b => exact BEq.comm
  case float.float a b => rw [same, same, BEq.comm, Bool.and_comm]
  case str.str a b => exact BEq.comm
  case arr.arr a b => exact sameElements_comm a b
  case obj.obj a b => exact sameMembers_comm a b

theorem sameElements_comm (as bs : List Json) : sameElements as bs = sameElements bs as := by
  cases as <;> cases bs <;> try rfl
  case cons.cons a as b bs => rw [sameElements, sameElements, same_comm a b, sameElements_comm as bs]

theorem sameMembers_comm (as bs : List (String × Json)) : sameMembers as bs = sameMembers bs as := by
  cases as <;> cases bs <;> try rfl
  case cons.cons a as b bs =>
    rw [sameMembers, sameMembers, BEq.comm, same_comm a.2 b.2, sameMembers_comm as bs]
end

/-! ## Data -/

theorem alike_float_iff (x y : Double) : (Json.float x).Alike (.float y) ↔ x = y ∨ x.isZero ∧ y.isZero :=
  ⟨fun h => by cases h with | float h => exact h, .float⟩

theorem alike_arr_iff (as bs : List Json) : (Json.arr as).Alike (.arr bs) ↔ List.Forall₂ Alike as bs :=
  ⟨fun h => by cases h with | arr h => exact h, .arr⟩

theorem alike_obj_iff (as bs : List (String × Json)) :
    (Json.obj as).Alike (.obj bs) ↔ ∀ k, Option.Rel Alike (as.lookup k) (bs.lookup k) :=
  ⟨fun h => by cases h with | obj h => exact h, .obj⟩

/-- A first member that another object with the same names has comes not after its first one. -/
theorem first_le_of_lookup {k l : String} {a b : Json} {bs : List (String × Json)}
    (hb : Ascending ((l, b) :: bs)) (h : ((l, b) :: bs).lookup k = some a) : l ≤ k := by
  rcases List.mem_cons.mp (mem_of_lookup h) with h | h
  · exact le_of_eq (Prod.mk.inj h).1.symm
  · exact le_of_lt ((ascending_cons.mp hb).1 _ h)

theorem lookup_eq_none_of_first {k : String} {a : Json} {as : List (String × Json)}
    (ha : Ascending ((k, a) :: as)) : as.lookup k = none := by
  cases h : as.lookup k with
  | none => rfl
  | some b => exact absurd ((ascending_cons.mp ha).1 _ (mem_of_lookup h)) (lt_irrefl k)

/-- Objects in order that have the same names and alike values begin with the same name. -/
theorem first_eq_of_lookup {k l : String} {a b : Json} {as bs : List (String × Json)}
    (ha : Ascending ((k, a) :: as)) (hb : Ascending ((l, b) :: bs))
    (h : ∀ q, Option.Rel Alike (((k, a) :: as).lookup q) (((l, b) :: bs).lookup q)) : k = l := by
  have hk := h k
  have hl := h l
  rw [lookup_cons_eq k, if_pos rfl] at hk
  rw [lookup_cons_eq l, if_pos rfl] at hl
  obtain ⟨c, hc⟩ : ∃ c, ((l, b) :: bs).lookup k = some c := by
    cases hfound : ((l, b) :: bs).lookup k with
    | none => rw [hfound] at hk; cases hk
    | some c => exact ⟨c, rfl⟩
  obtain ⟨d, hd⟩ : ∃ d, ((k, a) :: as).lookup l = some d := by
    cases hfound : ((k, a) :: as).lookup l with
    | none => rw [hfound] at hl; cases hl
    | some d => exact ⟨d, rfl⟩
  exact le_antisymm (first_le_of_lookup ha hd) (first_le_of_lookup hb hc)

mutual
/-- Place by place comparison of values in order decides whether they are the same data. -/
theorem same_iff_alike (a b : Json) (ha : a.Ordered) (hb : b.Ordered) : a.same b = true ↔ a.Alike b := by
  cases a <;> cases b
  case null.null => exact ⟨fun _ => .null, fun _ => rfl⟩
  case bool.bool a b =>
    exact ⟨fun h => eq_of_beq h ▸ .bool a, fun h => by cases h; exact beq_self_eq_true a⟩
  case int.int a b =>
    exact ⟨fun h => eq_of_beq h ▸ .int a, fun h => by cases h; exact beq_self_eq_true a⟩
  case float.float x y => rw [alike_float_iff, same, Bool.or_eq_true, Bool.and_eq_true, beq_iff_eq]
  case str.str a b =>
    exact ⟨fun h => eq_of_beq h ▸ .str a, fun h => by cases h; exact beq_self_eq_true a⟩
  case arr.arr as bs =>
    rw [alike_arr_iff]
    exact sameElements_iff as bs (ordered_arr_iff.mp ha) (ordered_arr_iff.mp hb)
  case obj.obj as bs =>
    rw [alike_obj_iff]
    obtain ⟨hkeys, hall⟩ := ordered_obj_iff.mp ha
    obtain ⟨hkeys', hall'⟩ := ordered_obj_iff.mp hb
    exact sameMembers_iff as bs hkeys hkeys' hall hall'
  -- values of two kinds
  all_goals exact ⟨fun h => Bool.noConfusion h, fun h => by cases h⟩

theorem sameElements_iff (as bs : List Json) (ha : ∀ j ∈ as, j.Ordered) (hb : ∀ j ∈ bs, j.Ordered) :
    sameElements as bs = true ↔ List.Forall₂ Alike as bs := by
  cases as <;> cases bs
  case nil.nil => exact ⟨fun _ => .nil, fun _ => rfl⟩
  case nil.cons => exact ⟨fun h => Bool.noConfusion h, fun h => by cases h⟩
  case cons.nil => exact ⟨fun h => Bool.noConfusion h, fun h => by cases h⟩
  case cons.cons a as b bs =>
    rw [sameElements, Bool.and_eq_true, List.forall₂_cons,
      same_iff_alike a b (ha a List.mem_cons_self) (hb b List.mem_cons_self),
      sameElements_iff as bs (fun j hj => ha j (List.mem_cons_of_mem _ hj)) fun j hj =>
        hb j (List.mem_cons_of_mem _ hj)]

theorem sameMembers_iff (as bs : List (String × Json)) (hkeys : Ascending as) (hkeys' : Ascending bs)
    (ha : ∀ m ∈ as, m.2.Ordered) (hb : ∀ m ∈ bs, m.2.Ordered) :
    sameMembers as bs = true ↔ ∀ k, Option.Rel Alike (as.lookup k) (bs.lookup k) := by
  cases as <;> cases bs
  case nil.nil => exact ⟨fun _ k => .none, fun _ => rfl⟩
  case nil.cons m bs =>
    refine ⟨fun h => Bool.noConfusion h, fun h => ?_⟩
    have hfirst := h m.1
    rw [lookup_cons_eq m.1, if_pos rfl] at hfirst
    cases hfirst
  case cons.nil m as =>
    refine ⟨fun h => Bool.noConfusion h, fun h => ?_⟩
    have hfirst := h m.1
    rw [lookup_cons_eq m.1, if_pos rfl] at hfirst
    cases hfirst
  case cons.cons m as n bs =>
    have hfirst := same_iff_alike m.2 n.2 (ha m List.mem_cons_self) (hb n List.mem_cons_self)
    have hrest := sameMembers_iff as bs (ascending_cons.mp hkeys).2 (ascending_cons.mp hkeys').2
      (fun j hj => ha j (List.mem_cons_of_mem _ hj)) fun j hj => hb j (List.mem_cons_of_mem _ hj)
    rw [sameMembers, Bool.and_eq_true, Bool.and_eq_true, beq_iff_eq, hfirst, hrest]
    constructor
    · rintro ⟨⟨hname, hvalue⟩, hmembers⟩ q
      rw [lookup_cons_eq m.1, lookup_cons_eq n.1, hname]
      split
      · exact .some hvalue
      · exact hmembers q
    · intro h
      have hname := first_eq_of_lookup hkeys hkeys' h
      refine ⟨⟨hname, ?_⟩, fun q => ?_⟩
      · have hvalue := h m.1
        rw [lookup_cons_eq m.1, lookup_cons_eq n.1, if_pos rfl, if_pos hname] at hvalue
        cases hvalue with
        | some hvalue => exact hvalue
      · by_cases hq : q = m.1
        · rw [hq, lookup_eq_none_of_first hkeys, hname, lookup_eq_none_of_first hkeys']
          exact .none
        · have hmember := h q
          rwa [lookup_cons_eq m.1, lookup_cons_eq n.1, if_neg hq, if_neg (hname ▸ hq)] at hmember
end

end Json
end StrategyBench

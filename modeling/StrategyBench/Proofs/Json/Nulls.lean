/-
StrategyBench.Proofs.Json.Nulls — values without the nulls inside them.

A script cannot tell a member that is null from one that is missing, so what is read back of a value
lacks the elements and members that were null, however deep they are (`withoutNulls`). An object
without nulls has the members that are not null under the same names (`lookup_membersWithoutNulls`).
-/

import StrategyBench.Proofs.Json.Ordered

namespace StrategyBench.Json

/-! ## Leaving out nulls -/

mutual
/-- A value whose arrays and objects lack what was null in them; null itself stays. -/
def withoutNulls : Json → Json
  | .arr js => .arr (elementsWithoutNulls js)
  | .obj ms => .obj (membersWithoutNulls ms)
  | j => j

def elementsWithoutNulls : List Json → List Json
  | [] => []
  | j :: js => if j.isNull then elementsWithoutNulls js else j.withoutNulls :: elementsWithoutNulls js

def membersWithoutNulls : List (String × Json) → List (String × Json)
  | [] => []
  | (k, j) :: ms => if j.isNull then membersWithoutNulls ms else (k, j.withoutNulls) :: membersWithoutNulls ms
end

theorem withoutNulls_isNull (j : Json) : j.withoutNulls.isNull = j.isNull := by
  cases j <;> rfl

theorem isNull_eq_false {j : Json} : j.isNull = false ↔ j ≠ .null := by
  cases j <;> simp [isNull]

/-- What is left of a value in an array or object: nothing of null. -/
def kept? (j : Json) : Option Json := if j.isNull then none else some j.withoutNulls

theorem eq_withoutNulls_of_kept {i j : Json} (h : j.kept? = some i) : i = j.withoutNulls := by
  unfold kept? at h
  split at h
  · cases h
  · exact (Option.some.inj h).symm

theorem elementsWithoutNulls_eq (js : List Json) : elementsWithoutNulls js = js.filterMap kept? := by
  induction js with
  | nil => rfl
  | cons j js ih =>
    rw [elementsWithoutNulls, List.filterMap_cons, kept?, ih]
    cases j.isNull <;> rfl

/-! ## Values without nulls -/

/-- No element and no member is null, however deep. -/
inductive NullFree : Json → Prop
  | null : NullFree .null
  | bool (b : Bool) : NullFree (.bool b)
  | int (i : Int) : NullFree (.int i)
  | float (x : Double) : NullFree (.float x)
  | str (s : String) : NullFree (.str s)
  | arr {js : List Json} (hne : ∀ j ∈ js, j ≠ .null) (h : ∀ j ∈ js, NullFree j) : NullFree (.arr js)
  | obj {ms : List (String × Json)} (hne : ∀ m ∈ ms, m.2 ≠ .null) (h : ∀ m ∈ ms, NullFree m.2) :
      NullFree (.obj ms)

mutual
theorem withoutNulls_of_nullFree {j : Json} (h : j.NullFree) : j.withoutNulls = j := by
  cases h with
  | arr hne h => rw [withoutNulls, elementsWithoutNulls_of_nullFree hne h]
  | obj hne h => rw [withoutNulls, membersWithoutNulls_of_nullFree hne h]
  | _ => rfl

theorem elementsWithoutNulls_of_nullFree {js : List Json} (hne : ∀ j ∈ js, j ≠ .null)
    (h : ∀ j ∈ js, NullFree j) : elementsWithoutNulls js = js := by
  cases js with
  | nil => rfl
  | cons j js =>
    have hj : j.isNull = false := isNull_eq_false.mpr (hne j List.mem_cons_self)
    rw [elementsWithoutNulls, hj, if_neg Bool.false_ne_true,
      withoutNulls_of_nullFree (h j List.mem_cons_self),
      elementsWithoutNulls_of_nullFree (fun i hi => hne i (List.mem_cons_of_mem _ hi))
        fun i hi => h i (List.mem_cons_of_mem _ hi)]

theorem membersWithoutNulls_of_nullFree {ms : List (String × Json)} (hne : ∀ m ∈ ms, m.2 ≠ .null)
    (h : ∀ m ∈ ms, NullFree m.2) : membersWithoutNulls ms = ms := by
  cases ms with
  | nil => rfl
  | cons m ms =>
    have hm : m.2.isNull = false := isNull_eq_false.mpr (hne m List.mem_cons_self)
    rw [membersWithoutNulls, hm, if_neg Bool.false_ne_true,
      withoutNulls_of_nullFree (h m List.mem_cons_self),
      membersWithoutNulls_of_nullFree (fun n hn => hne n (List.mem_cons_of_mem _ hn))
        fun n hn => h n (List.mem_cons_of_mem _ hn)]
end

/-! ## Members without nulls -/

theorem mem_keys_of_membersWithoutNulls {ms : List (String × Json)} {m : String × Json}
    (h : m ∈ membersWithoutNulls ms) : m.1 ∈ ms.map Prod.fst := by
  induction ms with
  | nil => cases h
  | cons n ms ih =>
    rw [membersWithoutNulls] at h
    split at h
    · exact List.mem_cons_of_mem _ (ih h)
    · rcases List.mem_cons.mp h with rfl | h
      · exact List.mem_cons_self
      · exact List.mem_cons_of_mem _ (ih h)

theorem lookup_eq_none_iff {ms : List (String × Json)} {k : String} :
    ms.lookup k = none ↔ k ∉ ms.map Prod.fst := by
  rw [List.lookup_eq_none_iff, List.mem_map]
  constructor
  · rintro h ⟨m, hm, rfl⟩
    exact bne_iff_ne.mp (h m hm) rfl
  · intro h m hm
    exact bne_iff_ne.mpr fun hk => h ⟨m, hm, hk.symm⟩

/-- Where names are different, a name stands for what is left of what it stood for. -/
theorem lookup_membersWithoutNulls {ms : List (String × Json)} (hms : (ms.map Prod.fst).Nodup) (k : String) :
    (membersWithoutNulls ms).lookup k = (ms.lookup k).bind kept? := by
  induction ms with
  | nil => rfl
  | cons m ms ih =>
    rw [List.map_cons, List.nodup_cons] at hms
    rw [membersWithoutNulls, lookup_cons_eq]
    by_cases hk : k = m.1
    · have hrest : ms.lookup k = none := lookup_eq_none_iff.mpr (hk ▸ hms.1)
      rw [if_pos hk, Option.bind_some, kept?]
      split
      · rw [ih hms.2, hrest, Option.bind_none]
      · rw [lookup_cons_eq, if_pos hk]
    · rw [if_neg hk, ← ih hms.2]
      split
      · rfl
      · rw [lookup_cons_eq, if_neg hk]

theorem Ascending.nodup_keys {ms : List (String × Json)} (h : Ascending ms) : (ms.map Prod.fst).Nodup :=
  (List.pairwise_map.mpr h).imp ne_of_lt

theorem Ascending.withoutNulls {ms : List (String × Json)} (h : Ascending ms) :
    Ascending (membersWithoutNulls ms) := by
  induction ms with
  | nil => exact List.Pairwise.nil
  | cons m ms ih =>
    obtain ⟨hfirst, hrest⟩ := ascending_cons.mp h
    rw [membersWithoutNulls]
    split
    · exact ih hrest
    · refine ascending_cons.mpr ⟨fun n hn => ?_, ih hrest⟩
      obtain ⟨l, hl, hkey⟩ := List.mem_map.mp (mem_keys_of_membersWithoutNulls hn)
      exact hkey ▸ hfirst l hl

/-! ## One list of members -/

/-- Members in order are determined by what the names stand for. -/
theorem eq_of_lookup {ms ns : List (String × Json)} (hms : Ascending ms) (hns : Ascending ns)
    (h : ∀ k, ms.lookup k = ns.lookup k) : ms = ns := by
  have hmem (m : String × Json) : m ∈ ms ↔ m ∈ ns := by
    constructor
    · exact fun hm => mem_of_lookup ((h m.1).symm.trans (lookup_of_mem hms hm))
    · exact fun hm => mem_of_lookup ((h m.1).trans (lookup_of_mem hns hm))
  have hperm : ms.Perm ns := by
    refine (List.perm_ext_iff_of_nodup ?_ ?_).mpr hmem
    · exact (hms.imp fun hlt => ne_of_apply_ne Prod.fst (ne_of_lt hlt))
    · exact (hns.imp fun hlt => ne_of_apply_ne Prod.fst (ne_of_lt hlt))
  exact hperm.eq_of_pairwise (fun _ _ _ _ hlt hgt => absurd hlt (lt_asymm hgt)) hms hns

/-- Putting members with different names in order changes none that a name stands for. -/
theorem lookup_ofMembers {ms : List (String × Json)} (hms : (ms.map Prod.fst).Nodup) (k : String) :
    (ofMembers ms).get? k = ms.lookup k := by
  have hfold (acc : List (String × Json)) :
      (ms.foldl (fun acc m => insertMember m.1 m.2 acc) acc).lookup k = (ms.lookup k).or (acc.lookup k) := by
    induction ms generalizing acc with
    | nil => rfl
    | cons m ms ih =>
      rw [List.map_cons, List.nodup_cons] at hms
      rw [List.foldl_cons, ih hms.2, lookup_insertMember, lookup_cons_eq]
      by_cases hk : k = m.1
      · rw [if_pos hk, if_pos hk, lookup_eq_none_iff.mpr (hk ▸ hms.1), Option.none_or, Option.some_or]
      · rw [if_neg hk, if_neg hk]
  exact (hfold []).trans Option.or_none

end StrategyBench.Json

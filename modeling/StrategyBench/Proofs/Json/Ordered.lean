/-
StrategyBench.Proofs.Json.Ordered — objects whose members stand in increasing key order.

Such an object has each key once and is one and the same list of members whatever order they were
given in. Objects that are made of members (`ordered_ofMembers`) and all values that are read from a
text (`ordered_read`) are of this kind.
-/

import Mathlib.Data.String.Basic
import StrategyBench.Json.Read

namespace StrategyBench.Json

/-! ## Members in order -/

/-- Members in increasing order of their keys. -/
def Ascending (ms : List (String × Json)) : Prop := ms.Pairwise fun m n => m.1 < n.1

/-- The members of all objects in a value are in increasing order. -/
inductive Ordered : Json → Prop
  | null : Ordered .null
  | bool (b : Bool) : Ordered (.bool b)
  | int (i : Int) : Ordered (.int i)
  | float (x : Double) : Ordered (.float x)
  | str (s : String) : Ordered (.str s)
  | arr {js : List Json} (h : ∀ j ∈ js, Ordered j) : Ordered (.arr js)
  | obj {ms : List (String × Json)} (hkeys : Ascending ms) (h : ∀ m ∈ ms, Ordered m.2) : Ordered (.obj ms)

theorem ordered_arr_iff {js : List Json} : Ordered (.arr js) ↔ ∀ j ∈ js, Ordered j :=
  ⟨fun h => by cases h with | arr h => exact h, .arr⟩

theorem ordered_obj_iff {ms : List (String × Json)} :
    Ordered (.obj ms) ↔ Ascending ms ∧ ∀ m ∈ ms, Ordered m.2 :=
  ⟨fun h => by cases h with | obj hkeys h => exact ⟨hkeys, h⟩, fun h => .obj h.1 h.2⟩

theorem ascending_cons {m : String × Json} {ms : List (String × Json)} :
    Ascending (m :: ms) ↔ (∀ n ∈ ms, m.1 < n.1) ∧ Ascending ms :=
  List.pairwise_cons

theorem lookup_cons_eq (l : String) (i : Json) (ms : List (String × Json)) (q : String) :
    ((l, i) :: ms).lookup q = if q = l then some i else ms.lookup q := by
  rw [List.lookup_cons]
  by_cases h : q = l
  · rw [if_pos h, beq_iff_eq.mpr h]
  · rw [if_neg h, beq_eq_false_iff_ne.mpr h]

theorem mem_of_lookup {ms : List (String × Json)} {k : String} {j : Json} (h : ms.lookup k = some j) :
    (k, j) ∈ ms := by
  induction ms with
  | nil => cases h
  | cons m ms ih =>
    obtain ⟨l, i⟩ := m
    rw [lookup_cons_eq] at h
    split at h
    · rename_i hkey
      rw [hkey, Option.some.inj h]
      exact List.mem_cons_self
    · exact List.mem_cons_of_mem _ (ih h)

theorem lookup_of_mem {ms : List (String × Json)} (hms : Ascending ms) {k : String} {j : Json}
    (h : (k, j) ∈ ms) : ms.lookup k = some j := by
  induction ms with
  | nil => cases h
  | cons m ms ih =>
    obtain ⟨l, i⟩ := m
    obtain ⟨hfirst, hrest⟩ := ascending_cons.mp hms
    rw [lookup_cons_eq]
    rcases List.mem_cons.mp h with h | h
    · obtain ⟨rfl, rfl⟩ := Prod.mk.inj h
      rw [if_pos rfl]
    · rw [if_neg (ne_of_gt (hfirst _ h))]
      exact ih hrest h

/-! ## Putting a member in its place -/

theorem lookup_insertMember (k : String) (j : Json) (ms : List (String × Json)) (q : String) :
    (insertMember k j ms).lookup q = if q = k then some j else ms.lookup q := by
  induction ms with
  | nil => exact lookup_cons_eq k j [] q
  | cons m ms ih =>
    obtain ⟨l, i⟩ := m
    rw [insertMember]
    by_cases hkl : k = l
    · rw [if_pos hkl, lookup_cons_eq, lookup_cons_eq, ← hkl]
      split <;> rfl
    · rw [if_neg hkl]
      split
      · rw [lookup_cons_eq]
      · rw [lookup_cons_eq, lookup_cons_eq, ih]
        by_cases hq : q = l
        · rw [if_pos hq, if_neg fun hk : q = k => hkl (hk.symm.trans hq), if_pos hq]
        · rw [if_neg hq, if_neg hq]

theorem mem_of_mem_insertMember {k : String} {j : Json} {ms : List (String × Json)} {m : String × Json}
    (h : m ∈ insertMember k j ms) : m = (k, j) ∨ m ∈ ms := by
  induction ms with
  | nil => exact .inl (List.mem_singleton.mp h)
  | cons n ms ih =>
    obtain ⟨l, i⟩ := n
    rw [insertMember] at h
    split at h
    · rcases List.mem_cons.mp h with h | h
      · exact .inl h
      · exact .inr (List.mem_cons_of_mem _ h)
    · split at h
      · rcases List.mem_cons.mp h with h | h
        · exact .inl h
        · exact .inr h
      · rcases List.mem_cons.mp h with h | h
        · exact .inr (h ▸ List.mem_cons_self)
        · exact (ih h).imp id (List.mem_cons_of_mem _)

theorem ascending_insertMember (k : String) (j : Json) {ms : List (String × Json)} (hms : Ascending ms) :
    Ascending (insertMember k j ms) := by
  induction ms with
  | nil => exact List.pairwise_singleton _ _
  | cons m ms ih =>
    obtain ⟨l, i⟩ := m
    obtain ⟨hfirst, hrest⟩ := ascending_cons.mp hms
    rw [insertMember]
    split
    · rename_i hkey
      exact ascending_cons.mpr ⟨fun n hn => hkey ▸ hfirst n hn, hrest⟩
    · rename_i hne
      split
      · rename_i hlt
        refine ascending_cons.mpr ⟨fun n hn => ?_, hms⟩
        rcases List.mem_cons.mp hn with rfl | hn
        · exact hlt
        · exact lt_trans hlt (hfirst n hn)
      · rename_i hge
        refine ascending_cons.mpr ⟨fun n hn => ?_, ih hrest⟩
        rcases mem_of_mem_insertMember hn with rfl | hn
        · exact lt_of_le_of_ne (not_lt.mp hge) (Ne.symm hne)
        · exact hfirst n hn

theorem ordered_insertMember {k : String} {j : Json} {ms : List (String × Json)} (hj : j.Ordered)
    (hms : (Json.obj ms).Ordered) : (Json.obj (insertMember k j ms)).Ordered := by
  obtain ⟨hkeys, hall⟩ := ordered_obj_iff.mp hms
  refine .obj (ascending_insertMember k j hkeys) fun m hm => ?_
  rcases mem_of_mem_insertMember hm with rfl | hm
  · exact hj
  · exact hall m hm

theorem ordered_ofMembers {ms : List (String × Json)} (h : ∀ m ∈ ms, m.2.Ordered) : (ofMembers ms).Ordered := by
  have hfold (acc : List (String × Json)) (hacc : (Json.obj acc).Ordered) :
      (Json.obj (ms.foldl (fun acc m => insertMember m.1 m.2 acc) acc)).Ordered := by
    induction ms generalizing acc with
    | nil => exact hacc
    | cons m ms ih =>
      exact ih (fun n hn => h n (List.mem_cons_of_mem _ hn)) _ (ordered_insertMember (h m List.mem_cons_self) hacc)
  exact hfold [] (.obj List.Pairwise.nil (by simp))

/-! ## Reading -/

/-- What comes of a partial computation that goes on with another is what comes of that one. -/
theorem forall_mem_bind {α β : Type} {P : β → Prop} {o : Option α} {f : α → Option β}
    (h : ∀ a, ∀ b ∈ f a, P b) : ∀ b ∈ o >>= f, P b := by
  intro b hb
  obtain ⟨a, -, hb⟩ := Option.bind_eq_some_iff.mp hb
  exact h a b hb

theorem ordered_of_mem_readNumber (negative : Bool) (cs : List Char) :
    ∀ r ∈ readNumber negative cs, r.1.Ordered := by
  unfold readNumber
  split
  rename_i rest _
  extract_lets sig number read
  -- what is read once the fraction is known
  have hnumber (part : Option (List Char) × List Char) : ∀ r ∈ number part, r.1.Ordered := by
    refine forall_mem_bind fun exponent => ?_
    have hfloat (x? : Option Double) (signed : Double → Double) :
        ∀ r ∈ x? >>= fun x => some (Json.float (signed x), exponent.2), r.1.Ordered :=
      forall_mem_bind fun x r hr => by
        obtain rfl := Option.some.inj hr
        exact .float _
    have hint (i : Int) : ∀ r ∈ some (Json.int i, exponent.2), r.1.Ordered := by
      rintro r hr
      obtain rfl := Option.some.inj hr
      exact .int i
    dsimp only
    split
    · split
      · exact hfloat _ _
      · split
        · split
          · exact hfloat _ _
          · exact hint _
        · exact hint _
    · exact hfloat _ _
  have hread (u : Unit) : ∀ r ∈ read u, r.1.Ordered := by
    unfold read
    split
    · dsimp only
      split
      all_goals exact forall_mem_bind hnumber
    · exact forall_mem_bind hnumber
  split
  · exact forall_mem_bind hread
  · exact hread ()

mutual
theorem ordered_readValue {fuel : Nat} {cs rest : List Char} {j : Json}
    (h : readValue fuel cs = some (j, rest)) : j.Ordered := by
  cases fuel with
  | zero => simp [readValue] at h
  | succ fuel =>
    unfold readValue at h
    split at h
    · cases h; constructor
    · cases h; constructor
    · cases h; constructor
    · obtain ⟨⟨s, r⟩, -, h⟩ := Option.map_eq_some_iff.mp h
      cases h; constructor
    · exact ordered_of_mem_readNumber _ _ _ h
    · split at h
      · cases h; exact .arr (by simp)
      · have hnone : ∀ i ∈ ([] : List Json), i.Ordered := by simp
        exact ordered_readElements hnone h
    · split at h
      · cases h; exact .obj List.Pairwise.nil (by simp)
      · have hnone : ∀ m ∈ ([] : List (String × Json)), m.2.Ordered := by simp
        exact ordered_readMembers hnone h
    · exact ordered_of_mem_readNumber _ _ _ h

theorem ordered_readElements {fuel : Nat} {acc : List Json} {cs rest : List Char} {j : Json}
    (hacc : ∀ i ∈ acc, i.Ordered) (h : readElements fuel acc cs = some (j, rest)) : j.Ordered := by
  cases fuel with
  | zero => simp [readElements] at h
  | succ fuel =>
    unfold readElements at h
    obtain ⟨⟨v, r⟩, hv, h⟩ := Option.bind_eq_some_iff.mp h
    have hacc : ∀ i ∈ v :: acc, i.Ordered := by
      intro i hi
      rcases List.mem_cons.mp hi with rfl | hi
      · exact ordered_readValue hv
      · exact hacc i hi
    dsimp only at h
    split at h
    · exact ordered_readElements hacc h
    · cases h
      exact .arr fun i hi => hacc i (List.mem_reverse.mp hi)
    · cases h

theorem ordered_readMembers {fuel : Nat} {acc : List (String × Json)} {cs rest : List Char} {j : Json}
    (hacc : ∀ m ∈ acc, m.2.Ordered) (h : readMembers fuel acc cs = some (j, rest)) : j.Ordered := by
  cases fuel with
  | zero => simp [readMembers] at h
  | succ fuel =>
    unfold readMembers at h
    split at h
    · obtain ⟨⟨key, r⟩, -, h⟩ := Option.bind_eq_some_iff.mp h
      dsimp only at h
      split at h
      · obtain ⟨⟨v, r⟩, hv, h⟩ := Option.bind_eq_some_iff.mp h
        have hacc : ∀ m ∈ (key, v) :: acc, m.2.Ordered := by
          intro m hm
          rcases List.mem_cons.mp hm with rfl | hm
          · exact ordered_readValue hv
          · exact hacc m hm
        dsimp only at h
        split at h
        · exact ordered_readMembers hacc h
        · cases h
          exact ordered_ofMembers fun m hm => hacc m (List.mem_reverse.mp hm)
        · cases h
      · cases h
    · cases h
end

/-- Whatever is read from a text has its members in order. -/
theorem ordered_read {text : String} {j : Json} (h : read? text = some j) : j.Ordered := by
  unfold read? at h
  dsimp only at h
  split at h
  · rename_i v rest hread
    split at h
    · obtain rfl := Option.some.inj h
      exact ordered_readValue hread
    · cases h
  · cases h

end StrategyBench.Json

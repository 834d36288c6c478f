/-
StrategyBench.Proofs.Compare.CommonLength — what the table of a line difference holds.

`commonLength` is the length of a longest common subsequence, by the heads of the two lists. The
table holds it for every rest of the one list and every rest of the other (`table_eq_rows`), so the
walk can be read without a table (`edits_cons_self`, `edits_cons_of_ne`).
-/

import Mathlib.Data.List.Infix
import StrategyBench.Compare.Lines

namespace StrategyBench.Compare

/-! ## Common subsequences -/

/-- How many lines two lists have in common at most, in order. -/
def commonLength : List String → List String → Nat
  | a :: as, b :: bs =>
    if a = b then commonLength as bs + 1
    else max (commonLength as (b :: bs)) (commonLength (a :: as) bs)
  | [], _ => 0
  | _, [] => 0
  termination_by as bs => as.length + bs.length

@[simp] theorem commonLength_nil (bs : List String) : commonLength [] bs = 0 := by
  rw [commonLength]

@[simp] theorem commonLength_nil_right (as : List String) : commonLength as [] = 0 := by
  cases as with
  | nil => rw [commonLength]
  | cons a as =>
    rw [commonLength]
    simp

theorem commonLength_cons_self (a : String) (as bs : List String) :
    commonLength (a :: as) (a :: bs) = commonLength as bs + 1 := by
  rw [commonLength, if_pos rfl]

theorem commonLength_cons_of_ne {a b : String} (h : a ≠ b) (as bs : List String) :
    commonLength (a :: as) (b :: bs) = max (commonLength as (b :: bs)) (commonLength (a :: as) bs) := by
  rw [commonLength, if_neg h]

/-- No common subsequence is longer. -/
theorem length_le_commonLength {c as bs : List String} (ha : c.Sublist as) (hb : c.Sublist bs) :
    c.length ≤ commonLength as bs := by
  fun_induction commonLength as bs generalizing c with
  | case1 as b bs ih =>
    have htail : c.tail.length ≤ commonLength as bs := ih ha.tail hb.tail
    rw [List.length_tail] at htail
    omega
  | case2 a as b bs hne iha ihb =>
    cases c with
    | nil => exact Nat.zero_le _
    | cons x c =>
      -- the first line of `c` is not the head of both lists
      by_cases hx : x = a
      · have hb' : (x :: c).Sublist bs := (List.sublist_cons_iff.mp hb).resolve_right <| by
          rintro ⟨r, heq, -⟩
          exact hne (hx.symm.trans (List.cons.inj heq).1)
        exact Nat.le_trans (ihb ha hb') (Nat.le_max_right _ _)
      · have ha' : (x :: c).Sublist as := (List.sublist_cons_iff.mp ha).resolve_right <| by
          rintro ⟨r, heq, -⟩
          exact hx (List.cons.inj heq).1
        exact Nat.le_trans (iha ha' hb) (Nat.le_max_left _ _)
  | case3 bs =>
    obtain rfl := List.sublist_nil.mp ha
    exact Nat.le_refl _
  | case4 as =>
    obtain rfl := List.sublist_nil.mp hb
    exact Nat.zero_le _

/-- Some common subsequence is as long. -/
theorem exists_common (as bs : List String) :
    ∃ c : List String, c.Sublist as ∧ c.Sublist bs ∧ c.length = commonLength as bs := by
  fun_induction commonLength as bs with
  | case1 as b bs ih =>
    obtain ⟨c, ha, hb, hc⟩ := ih
    exact ⟨b :: c, ha.cons_cons b, hb.cons_cons b, by rw [List.length_cons, hc]⟩
  | case2 a as b bs hne iha ihb =>
    rcases Nat.le_total (commonLength (a :: as) bs) (commonLength as (b :: bs)) with hle | hle
    · obtain ⟨c, ha, hb, hc⟩ := iha
      exact ⟨c, ha.cons a, hb, by rw [hc, Nat.max_eq_left hle]⟩
    · obtain ⟨c, ha, hb, hc⟩ := ihb
      exact ⟨c, ha, hb.cons b, by rw [hc, Nat.max_eq_right hle]⟩
  | case3 bs => exact ⟨[], List.nil_sublist _, List.nil_sublist _, rfl⟩
  | case4 as => exact ⟨[], List.nil_sublist _, List.nil_sublist _, rfl⟩

theorem commonLength_mono {as as' bs bs' : List String} (ha : as.Sublist as') (hb : bs.Sublist bs') :
    commonLength as bs ≤ commonLength as' bs' := by
  obtain ⟨c, hca, hcb, hc⟩ := exists_common as bs
  rw [← hc]
  exact length_le_commonLength (hca.trans ha) (hcb.trans hb)

theorem commonLength_comm (as bs : List String) : commonLength as bs = commonLength bs as := by
  have hle : ∀ as bs, commonLength as bs ≤ commonLength bs as := by
    intro as bs
    obtain ⟨c, ha, hb, hc⟩ := exists_common as bs
    rw [← hc]
    exact length_le_commonLength hb ha
  exact Nat.le_antisymm (hle as bs) (hle bs as)

/-! ## The table -/

/-- The lengths for `as` and every rest of `bs`. -/
def row (as bs : List String) : List Nat := bs.tails.map (commonLength as)

/-- The lengths for every rest of `as` and every rest of `bs`. -/
def rows (as bs : List String) : List (List Nat) := as.tails.map (row · bs)

@[simp] theorem row_cons (as : List String) (b : String) (bs : List String) :
    row as (b :: bs) = commonLength as (b :: bs) :: row as bs := by
  simp [row]

@[simp] theorem rows_cons (a : String) (as bs : List String) : rows (a :: as) bs = row (a :: as) bs :: rows as bs := by
  simp [rows]

@[simp] theorem headD_row (as bs : List String) : (row as bs).headD 0 = commonLength as bs := by
  cases bs <;> simp [row]

@[simp] theorem headD_rows (as bs : List String) : (rows as bs).headD [] = row as bs := by
  cases as <;> simp [rows]

theorem map_tail_rows (as : List String) (b : String) (bs : List String) :
    (rows as (b :: bs)).map List.tail = rows as bs := by
  simp [rows, Function.comp_def]

theorem row_nil (bs : List String) : row [] bs = List.replicate (bs.length + 1) 0 := by
  have hzero : commonLength [] = fun _ => 0 := funext commonLength_nil
  rw [row, hzero, List.map_const', List.length_tails]

theorem tableRow_eq_row (a : String) (as bs : List String) : tableRow a bs (row as bs) = row (a :: as) bs := by
  induction bs with
  | nil => simp [tableRow, row]
  | cons b bs ih =>
    simp only [tableRow, row_cons, List.tail_cons, List.headD_cons, headD_row, ih]
    by_cases h : a = b
    · subst h
      rw [if_pos rfl, commonLength_cons_self]
    · rw [if_neg h, commonLength_cons_of_ne h]

theorem table_eq_rows (as bs : List String) : table bs as = rows as bs := by
  induction as with
  | nil => simp [table, rows, row_nil]
  | cons a as ih => rw [table, ih, headD_rows, tableRow_eq_row, rows_cons]

/-! ## The walk -/

/-- The edits that the walk takes by the table. -/
def edits (as bs : List String) : List (SegmentKind × String) := walk as bs (rows as bs)

theorem edits_nil (bs : List String) : edits [] bs = bs.map (SegmentKind.added, ·) := by
  rw [edits, walk]

theorem edits_nil_right (as : List String) : edits as [] = as.map (SegmentKind.removed, ·) := by
  cases as with
  | nil => rw [edits_nil]; rfl
  | cons a as =>
    rw [edits, walk]
    simp

theorem edits_cons_self (a : String) (as bs : List String) :
    edits (a :: as) (a :: bs) = (.equal, a) :: edits as bs := by
  rw [edits, walk, if_pos rfl, rows_cons, List.tail_cons, map_tail_rows, edits]

/-- Where two lines differ, the walk removes if as much is common after that, and adds else. -/
theorem edits_cons_of_ne {a b : String} (h : a ≠ b) (as bs : List String) :
    edits (a :: as) (b :: bs) =
      if commonLength (a :: as) bs ≤ commonLength as (b :: bs) then (.removed, a) :: edits as (b :: bs)
      else (.added, b) :: edits (a :: as) bs := by
  rw [edits, walk, if_neg h]
  simp only [rows_cons, List.headD_cons, List.tail_cons, headD_rows, headD_row, row_cons, List.map_cons,
    map_tail_rows, ge_iff_le]
  rw [edits, edits, rows_cons]

theorem diffLines_of_ne {a b : String} (h : a ≠ b) : diffLines a b = merge (edits (linesOf a) (linesOf b)) := by
  rw [diffLines, if_neg h]
  simp only [table_eq_rows]
  rfl

end StrategyBench.Compare

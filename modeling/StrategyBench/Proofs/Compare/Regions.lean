/-
StrategyBench.Proofs.Compare.Regions — each changed region is a removal, an addition, or both in this order.

Once the walk adds it goes on adding until the next common line: had it rather removed later, the
table would have let it remove at once (`not_removed_after_added`). So no removed line follows an
added one (`isChain_edits`); joining neighbours of one kind keeps that and leaves no two neighbours
of one kind (`isChain_merge`). A difference without changed segments holds the same text twice, so
there is a changed segment exactly where the texts differ (`exists_changed_iff`).
-/

import Mathlib.Data.List.Chain
import StrategyBench.Proofs.Compare.CommonLength
import StrategyBench.Proofs.Compare.RoundTrip

namespace StrategyBench.Compare

/-- What may stand right before what: removals come before additions. -/
def SegmentKind.MayPrecede (k k' : SegmentKind) : Prop := k = .added → k' ≠ .removed

/-! ## The walk -/

/-- Where the table forbids to remove a line before an addition, it does so after it too. -/
theorem not_removed_after_added {a b : String} {as bs : List String}
    (hlt : commonLength as (b :: bs) < commonLength (a :: as) bs) :
    ∀ k ∈ ((edits (a :: as) bs).map Prod.fst).head?, k ≠ .removed := by
  cases bs with
  | nil =>
    rw [commonLength_nil_right] at hlt
    exact absurd hlt (Nat.not_lt_zero _)
  | cons b' bs =>
    by_cases heq : a = b'
    · subst heq
      rw [edits_cons_self]
      simp
    · have hmono : commonLength as (b' :: bs) ≤ commonLength as (b :: b' :: bs) :=
        commonLength_mono (List.Sublist.refl as) (List.sublist_cons_self b (b' :: bs))
      rw [commonLength_cons_of_ne heq] at hlt
      have hadd : ¬commonLength (a :: as) bs ≤ commonLength as (b' :: bs) := by omega
      rw [edits_cons_of_ne heq, if_neg hadd]
      simp

theorem isChain_const (k : SegmentKind) (ls : List String) :
    ((ls.map (k, ·)).map Prod.fst).IsChain SegmentKind.MayPrecede := by
  have hconst : (ls.map (k, ·)).map Prod.fst = List.replicate ls.length k := by
    rw [List.map_map]
    exact List.map_const' ..
  rw [hconst]
  refine List.isChain_replicate_of_rel _ fun hk => ?_
  rw [hk]
  exact SegmentKind.noConfusion

/-- No line is removed right after one that is added. -/
theorem isChain_edits (as bs : List String) : ((edits as bs).map Prod.fst).IsChain SegmentKind.MayPrecede := by
  fun_induction commonLength as bs with
  | case1 as b bs ih =>
    rw [edits_cons_self, List.map_cons, List.isChain_cons]
    exact ⟨fun _ _ hk => SegmentKind.noConfusion hk, ih⟩
  | case2 a as b bs hne iha ihb =>
    rw [edits_cons_of_ne hne]
    split
    · rw [List.map_cons, List.isChain_cons]
      exact ⟨fun _ _ hk => SegmentKind.noConfusion hk, iha⟩
    · rename_i hlt
      rw [List.map_cons, List.isChain_cons]
      exact ⟨fun k hk _ => not_removed_after_added (Nat.lt_of_not_le hlt) k hk, ihb⟩
  | case3 bs =>
    rw [edits_nil]
    exact isChain_const .added bs
  | case4 as =>
    rw [edits_nil_right]
    exact isChain_const .removed as

/-! ## Segments -/

theorem kinds_merge_cons (k : SegmentKind) (l : String) (script : List (SegmentKind × String)) :
    (merge ((k, l) :: script)).map Segment.kind =
      match (merge script).map Segment.kind with
      | [] => [k]
      | k' :: ks => if k' = k then k' :: ks else k :: k' :: ks := by
  rw [merge]
  cases merge script with
  | nil => rfl
  | cons seg segs =>
    simp only [List.map_cons]
    split
    · rename_i hk
      rw [List.map_cons, hk]
    · rfl

theorem head?_kinds_merge (script : List (SegmentKind × String)) :
    ((merge script).map Segment.kind).head? = (script.map Prod.fst).head? := by
  cases script with
  | nil => rfl
  | cons e script =>
    obtain ⟨k, l⟩ := e
    rw [kinds_merge_cons]
    split
    · rfl
    · split
      · rename_i hk
        rw [hk]
        rfl
      · rfl

/-- What may stand before what among the edits may do so among the segments, none of which is next to
    one of its own kind. -/
theorem isChain_merge {R : SegmentKind → SegmentKind → Prop} {script : List (SegmentKind × String)}
    (h : (script.map Prod.fst).IsChain R) :
    ((merge script).map Segment.kind).IsChain fun k k' => k ≠ k' ∧ R k k' := by
  induction script with
  | nil => exact List.isChain_nil
  | cons e script ih =>
    obtain ⟨k, l⟩ := e
    rw [List.map_cons, List.isChain_cons] at h
    have hrest := ih h.2
    have hhead := head?_kinds_merge script
    rw [kinds_merge_cons]
    split
    · exact List.isChain_singleton k
    · rename_i k' ks hks
      rw [hks] at hrest hhead
      split
      · exact hrest
      · rename_i hk
        exact List.isChain_cons_cons.mpr ⟨⟨Ne.symm hk, h.1 k' (by rw [← hhead]; rfl)⟩, hrest⟩

theorem isChain_diffLines (a b : String) :
    ((diffLines a b).map Segment.kind).IsChain fun k k' => k ≠ k' ∧ k.MayPrecede k' := by
  by_cases heq : a = b
  · rw [diffLines, if_pos heq]
    split
    · exact List.isChain_nil
    · exact List.isChain_singleton _
  · rw [diffLines_of_ne heq]
    exact isChain_merge (isChain_edits _ _)

/-! ## Changed regions -/

section Regions

variable {ks : List SegmentKind}

/-- Without an equal segment nothing comes after an addition. -/
theorem nil_of_isChain_added (h : (.added :: ks).IsChain fun k k' => k ≠ k' ∧ k.MayPrecede k')
    (hne : ∀ k ∈ ks, k ≠ .equal) : ks = [] := by
  cases ks with
  | nil => rfl
  | cons k ks =>
    obtain ⟨⟨hother, hmay⟩, -⟩ := List.isChain_cons_cons.mp h
    cases k with
    | equal => exact absurd rfl (hne .equal List.mem_cons_self)
    | added => exact absurd rfl hother
    | removed => exact absurd rfl (hmay rfl)

/-- Without an equal segment there is at most a removal and then an addition. -/
theorem sublist_of_isChain (h : ks.IsChain fun k k' => k ≠ k' ∧ k.MayPrecede k')
    (hne : ∀ k ∈ ks, k ≠ .equal) : ks.Sublist [.removed, .added] := by
  cases ks with
  | nil => exact List.nil_sublist _
  | cons k ks =>
    cases k with
    | equal => exact absurd rfl (hne .equal List.mem_cons_self)
    | added =>
      rw [nil_of_isChain_added h fun k hk => hne k (List.mem_cons_of_mem _ hk)]
      exact List.sublist_cons_self _ _
    | removed =>
      cases ks with
      | nil => exact (List.nil_sublist _).cons_cons _
      | cons k ks =>
        obtain ⟨⟨hother, -⟩, hrest⟩ := List.isChain_cons_cons.mp h
        cases k with
        | equal => exact absurd rfl (hne .equal (by simp))
        | removed => exact absurd rfl hother
        | added =>
          rw [nil_of_isChain_added hrest fun k hk => hne k (by simp [hk])]

end Regions

/-! ## Changes -/

/-- Where every segment is equal, both texts are read off the same segments. -/
theorem rebuild_of_equal {segments : List Segment} (h : ∀ seg ∈ segments, seg.kind = .equal) :
    rebuild SegmentKind.ofBefore segments = rebuild SegmentKind.ofAfter segments := by
  have hsame : segments.filter (fun seg => SegmentKind.ofBefore seg.kind) =
      segments.filter fun seg => SegmentKind.ofAfter seg.kind := by
    refine List.filter_congr fun seg hseg => ?_
    rw [h seg hseg]
    rfl
  rw [rebuild, rebuild, hsame]

theorem exists_changed_iff (a b : String) : (∃ seg ∈ diffLines a b, seg.kind ≠ .equal) ↔ a ≠ b := by
  by_cases heq : a = b
  · subst heq
    rw [diffLines, if_pos rfl]
    split <;> simp
  · refine iff_of_true ?_ heq
    by_contra hnone
    push Not at hnone
    have hscript : IsScript (linesOf a) (linesOf b) (edits (linesOf a) (linesOf b)) := isScript_walk _ _ _
    have hrebuild := rebuild_of_equal hnone
    rw [diffLines_of_ne heq, rebuild_merge, rebuild_merge, hscript.before, hscript.after,
      intercalate_linesOf, intercalate_linesOf] at hrebuild
    exact heq hrebuild

/-- No two neighbours among the segments are of one kind and none that is removed follows one that is
    added; so segments in a row none of which is equal are at most one removed and then one added. A
    segment that is not equal is there exactly if the texts differ. -/
theorem diffLines_canonical (a b : String) :
    ((diffLines a b).map Segment.kind).IsChain (fun k k' => k ≠ k' ∧ ¬(k = .added ∧ k' = .removed)) ∧
      (∀ region, region <:+: diffLines a b → (∀ seg ∈ region, seg.kind ≠ .equal) →
        (region.map Segment.kind).Sublist [.removed, .added]) ∧
      ((∃ seg ∈ diffLines a b, seg.kind ≠ .equal) ↔ a ≠ b) := by
  have hchain := isChain_diffLines a b
  refine ⟨hchain.imp fun k k' hk => ⟨hk.1, fun hboth => hk.2 hboth.1 hboth.2⟩, fun region hregion hne => ?_,
    exists_changed_iff a b⟩
  have hkinds := List.IsChain.infix hchain (hregion.map Segment.kind)
  refine sublist_of_isChain hkinds fun k hk => ?_
  obtain ⟨seg, hseg, rfl⟩ := List.mem_map.mp hk
  exact hne seg hseg

/-- A line that gives way to two others is one removed and one added segment. -/
theorem region_of_replaced_line :
    ∃ region, region <:+: diffLines "a\nx" "b\nc\nx" ∧ (∀ seg ∈ region, seg.kind ≠ .equal) ∧
      region.length = 2 ∧ (region.map Segment.kind).Sublist [.removed, .added] := by
  have hdiff : diffLines "a\nx" "b\nc\nx" = [⟨.removed, "a"⟩, ⟨.added, "b\nc"⟩] ++ [⟨.equal, "x"⟩] := by
    decide +kernel
  have hregion : [⟨.removed, "a"⟩, ⟨.added, "b\nc"⟩] <:+: diffLines "a\nx" "b\nc\nx" := by
    rw [hdiff]
    exact (List.prefix_append _ _).isInfix
  obtain ⟨-, hregions, -⟩ := diffLines_canonical "a\nx" "b\nc\nx"
  exact ⟨_, hregion, by simp, rfl, hregions _ hregion (by simp)⟩

end StrategyBench.Compare

/-
StrategyBench.Proofs.Compare.Minimal — a line difference keeps as many lines as it can.

The lines that an edit script keeps are a common subsequence of its two lists (`kept_sublist`), and
the lines it changes are the rest of both (`IsScript.length_add_length`); so to keep most is to
change least. The walk keeps `commonLength` lines (`kept_edits`), and no common subsequence is longer.

Lines are what stands between newlines (`IsLines`), so a text has one line more than it has newlines
(`length_linesOf`), and the segments have as many as their edits (`lineCount_diffLines_of_ne`).
-/

import Mathlib.Algebra.GroupWithZero.Nat
import StrategyBench.Proofs.Compare.CommonLength
import StrategyBench.Proofs.Compare.RoundTrip

namespace StrategyBench.Compare

/-- The kind of line that both texts have. -/
def SegmentKind.kept : SegmentKind → Bool
  | .equal => true
  | .added | .removed => false

/-- The kinds of line that one of the texts has. -/
def SegmentKind.changed (k : SegmentKind) : Bool := !k.kept

/-! ## What a script keeps -/

section Scripts

variable {as bs : List String} {script : List (SegmentKind × String)}

theorem editLines_sublist {p q : SegmentKind → Bool} (h : ∀ k, p k = true → q k = true)
    (edits : List (SegmentKind × String)) : (editLines p edits).Sublist (editLines q edits) :=
  (List.monotone_filter_right edits fun e => h e.1).map Prod.snd

/-- The lines that a script keeps are in both lists, in order. -/
theorem kept_sublist (h : IsScript as bs script) :
    (editLines SegmentKind.kept script).Sublist as ∧ (editLines SegmentKind.kept script).Sublist bs := by
  have hbefore : ∀ k : SegmentKind, k.kept = true → k.ofBefore = true := by
    intro k hk
    cases k <;> simp_all [SegmentKind.kept, SegmentKind.ofBefore]
  have hafter : ∀ k : SegmentKind, k.kept = true → k.ofAfter = true := by
    intro k hk
    cases k <;> simp_all [SegmentKind.kept, SegmentKind.ofAfter]
  constructor
  · simpa only [h.before] using editLines_sublist hbefore script
  · simpa only [h.after] using editLines_sublist hafter script

/-- Both lists together have each kept line twice and each changed line once. -/
theorem editLines_length (edits : List (SegmentKind × String)) :
    (editLines SegmentKind.ofBefore edits).length + (editLines SegmentKind.ofAfter edits).length =
      2 * (editLines SegmentKind.kept edits).length + (editLines SegmentKind.changed edits).length := by
  induction edits with
  | nil => rfl
  | cons e edits ih =>
    obtain ⟨k, l⟩ := e
    cases k <;>
      simp only [editLines_cons, SegmentKind.ofBefore, SegmentKind.ofAfter, SegmentKind.kept, SegmentKind.changed,
        Bool.not_true, Bool.not_false, Bool.false_eq_true, if_true, if_false, List.length_cons] at ih ⊢ <;>
      omega

theorem IsScript.length_add_length (h : IsScript as bs script) :
    as.length + bs.length =
      2 * (editLines SegmentKind.kept script).length + (editLines SegmentKind.changed script).length := by
  rw [← editLines_length, h.before, h.after]

/-- A script cannot keep more than is common. -/
theorem kept_le_commonLength (h : IsScript as bs script) :
    (editLines SegmentKind.kept script).length ≤ commonLength as bs := by
  obtain ⟨ha, hb⟩ := kept_sublist h
  exact length_le_commonLength ha hb

end Scripts

/-! ## What the walk keeps -/

theorem isScript_edits (as bs : List String) : IsScript as bs (edits as bs) := isScript_walk as bs _

theorem editLines_kept_map (k : SegmentKind) (h : k.kept = false) (ls : List String) :
    editLines SegmentKind.kept (ls.map (k, ·)) = [] := by
  simp [editLines, h]

/-- The walk follows the table to as many common lines as there are. -/
theorem kept_edits (as bs : List String) :
    (editLines SegmentKind.kept (edits as bs)).length = commonLength as bs := by
  fun_induction commonLength as bs with
  | case1 as b bs ih =>
    rw [edits_cons_self, editLines_cons, SegmentKind.kept, if_pos rfl, List.length_cons, ih]
  | case2 a as b bs hne iha ihb =>
    rw [edits_cons_of_ne hne]
    split
    · rename_i hle
      rw [editLines_cons, SegmentKind.kept, if_neg Bool.false_ne_true, iha, Nat.max_eq_left hle]
    · rename_i hlt
      rw [editLines_cons, SegmentKind.kept, if_neg Bool.false_ne_true, ihb, Nat.max_eq_right (by omega)]
  | case3 bs => rw [edits_nil, editLines_kept_map _ rfl, List.length_nil]
  | case4 as => rw [edits_nil_right, editLines_kept_map _ rfl, List.length_nil]

theorem changed_edits_le {as bs : List String} {script : List (SegmentKind × String)} (h : IsScript as bs script) :
    (editLines SegmentKind.changed (edits as bs)).length ≤ (editLines SegmentKind.changed script).length := by
  have hwalk := (isScript_edits as bs).length_add_length
  have hscript := h.length_add_length
  have hkept := kept_le_commonLength h
  rw [kept_edits] at hwalk
  omega

/-! ## Lines of a text -/

/-- The parts of a text between its newlines. -/
structure IsLines (s : String) (ls : List String) : Prop where
  joined : "\n".intercalate ls = s
  whole : ∀ l ∈ ls, '\n' ∉ l.toList
  nonempty : ls ≠ []

theorem newline_not_mem_of_mem_splitLines {cs l : List Char} (h : l ∈ splitLines cs) : '\n' ∉ l := by
  induction cs generalizing l with
  | nil =>
    obtain rfl : l = [] := by simpa [splitLines] using h
    exact List.not_mem_nil
  | cons c cs ih =>
    obtain ⟨l', ls, hl⟩ := List.exists_cons_of_ne_nil (splitLines_ne_nil cs)
    by_cases hc : c = '\n'
    · subst hc
      rw [splitLines_newline] at h
      rcases List.mem_cons.mp h with rfl | h
      · exact List.not_mem_nil
      · exact ih h
    · rw [splitLines_cons hc hl] at h
      rcases List.mem_cons.mp h with rfl | h
      · have hl' : '\n' ∉ l' := ih (by simp [hl])
        simp [hl', Ne.symm hc]
      · exact ih (by simp [hl, h])

theorem isLines_linesOf (s : String) : IsLines s (linesOf s) where
  joined := intercalate_linesOf s
  whole l hl := by
    obtain ⟨cs, hcs, rfl⟩ := List.mem_map.mp hl
    rw [String.toList_ofList]
    exact newline_not_mem_of_mem_splitLines hcs
  nonempty := linesOf_ne_nil s

theorem splitLines_of_newline_not_mem {cs : List Char} (h : '\n' ∉ cs) : splitLines cs = [cs] := by
  induction cs with
  | nil => rfl
  | cons c cs ih =>
    obtain ⟨hc, hcs⟩ : '\n' ≠ c ∧ '\n' ∉ cs := by simpa using h
    exact splitLines_cons (Ne.symm hc) (ih hcs)

/-- A text without newlines is one line. -/
theorem linesOf_of_newline_not_mem {l : String} (h : '\n' ∉ l.toList) : linesOf l = [l] := by
  rw [linesOf, splitLines_of_newline_not_mem h, List.map_singleton, String.ofList_toList]

theorem flatMap_linesOf {ls : List String} (h : ∀ l ∈ ls, '\n' ∉ l.toList) : ls.flatMap linesOf = ls := by
  induction ls with
  | nil => rfl
  | cons l ls ih =>
    have hrest : ls.flatMap linesOf = ls := ih fun l' hl' => h l' (List.mem_cons_of_mem l hl')
    rw [List.flatMap_cons, linesOf_of_newline_not_mem (h l List.mem_cons_self), hrest]
    rfl

theorem linesOf_intercalate {texts : List String} (h : texts ≠ []) :
    linesOf ("\n".intercalate texts) = texts.flatMap linesOf := by
  induction texts with
  | nil => exact absurd rfl h
  | cons t ts ih =>
    cases ts with
    | nil => simp
    | cons u us =>
      rw [String.intercalate_cons_cons, linesOf_append, ih (List.cons_ne_nil u us)]
      rfl

/-- A text has its lines in one way only. -/
theorem IsLines.eq_linesOf {s : String} {ls : List String} (h : IsLines s ls) : ls = linesOf s := by
  rw [← h.joined, linesOf_intercalate h.nonempty, flatMap_linesOf h.whole]

theorem length_splitLines (cs : List Char) : (splitLines cs).length = cs.count '\n' + 1 := by
  induction cs with
  | nil => rfl
  | cons c cs ih =>
    obtain ⟨l, ls, hl⟩ := List.exists_cons_of_ne_nil (splitLines_ne_nil cs)
    by_cases hc : c = '\n'
    · subst hc
      rw [splitLines_newline, List.length_cons, ih, List.count_cons_self]
    · rw [hl, List.length_cons] at ih
      rw [splitLines_cons hc hl, List.length_cons, ih, List.count_cons_of_ne hc]

theorem length_linesOf (s : String) : (linesOf s).length = s.toList.count '\n' + 1 := by
  rw [linesOf, List.length_map, length_splitLines]

/-! ## Lines of segments -/

/-- How many lines the segments of the chosen kinds have: one more than newlines each. -/
def lineCount (p : SegmentKind → Bool) (segments : List Segment) : Nat :=
  ((segments.filter fun s => p s.kind).map fun s => s.value.toList.count '\n' + 1).sum

theorem lineCount_eq_length (p : SegmentKind → Bool) (segments : List Segment) :
    lineCount p segments = (segmentLines p segments).length := by
  rw [segmentLines, List.length_flatMap, lineCount]
  congr 1
  exact List.map_congr_left fun s _ => (length_linesOf s.value).symm

/-- Every line of a script is a line of one of the lists. -/
theorem mem_of_mem_editLines {as bs : List String} {script : List (SegmentKind × String)} (h : IsScript as bs script)
    {p : SegmentKind → Bool} {l : String} (hl : l ∈ editLines p script) : l ∈ as ∨ l ∈ bs := by
  obtain ⟨⟨k, l'⟩, he, rfl⟩ := List.mem_map.mp hl
  have hmem := (List.mem_filter.mp he).1
  cases k with
  | added =>
    right
    rw [← h.after]
    exact List.mem_map.mpr ⟨_, List.mem_filter.mpr ⟨hmem, rfl⟩, rfl⟩
  | equal | removed =>
    left
    rw [← h.before]
    exact List.mem_map.mpr ⟨_, List.mem_filter.mpr ⟨hmem, rfl⟩, rfl⟩

theorem lineCount_diffLines_of_ne {a b : String} (h : a ≠ b) (p : SegmentKind → Bool) :
    lineCount p (diffLines a b) = (editLines p (edits (linesOf a) (linesOf b))).length := by
  rw [lineCount_eq_length, diffLines_of_ne h, segmentLines_merge, flatMap_linesOf fun l hl => ?_]
  rcases mem_of_mem_editLines (isScript_edits _ _) hl with hl | hl
  · exact (isLines_linesOf a).whole l hl
  · exact (isLines_linesOf b).whole l hl

theorem lineCount_diffLines_self {a : String} (h : a ≠ "") (p : SegmentKind → Bool) :
    lineCount p (diffLines a a) = if p .equal then (linesOf a).length else 0 := by
  have hne : a.isEmpty = false := by simpa using h
  rw [diffLines, if_pos rfl, hne, length_linesOf]
  by_cases hp : p .equal = true <;> simp [lineCount, hp]

/-! ## Minimality -/

theorem commonLength_self (as : List String) : commonLength as as = as.length := by
  induction as with
  | nil => rw [commonLength_nil]; rfl
  | cons a as ih => rw [commonLength_cons_self, ih, List.length_cons]

/-- The equal segments have as many lines as the texts have in common. -/
theorem kept_diffLines {a b : String} (h : ¬(a = "" ∧ b = "")) :
    lineCount SegmentKind.kept (diffLines a b) = commonLength (linesOf a) (linesOf b) := by
  by_cases heq : a = b
  · subst heq
    have hne : a ≠ "" := fun ha => h ⟨ha, ha⟩
    rw [lineCount_diffLines_self hne, SegmentKind.kept, if_pos rfl, commonLength_self]
  · rw [lineCount_diffLines_of_ne heq, kept_edits]

theorem changed_diffLines_le {a b : String} {script : List (SegmentKind × String)}
    (h : IsScript (linesOf a) (linesOf b) script) :
    lineCount SegmentKind.changed (diffLines a b) ≤ (editLines SegmentKind.changed script).length := by
  by_cases heq : a = b
  · subst heq
    by_cases hempty : a = ""
    · subst hempty
      exact Nat.zero_le _
    · rw [lineCount_diffLines_self hempty]
      exact Nat.zero_le _
  · rw [lineCount_diffLines_of_ne heq]
    exact changed_edits_le h

/-- The equal segments of two texts that are not both empty have as many lines as a longest common
    subsequence of the lines of the texts. No edit script from the one to the other removes and adds
    fewer lines than the removed and the added segments have, and the other way round as many lines
    are kept. -/
theorem diffLines_keeps_most {a b : String} {as bs : List String} (ha : IsLines a as) (hb : IsLines b bs)
    (h : ¬(a = "" ∧ b = "")) :
    ((∃ c : List String, c.Sublist as ∧ c.Sublist bs ∧ c.length = lineCount SegmentKind.kept (diffLines a b)) ∧
      ∀ c : List String, c.Sublist as → c.Sublist bs → c.length ≤ lineCount SegmentKind.kept (diffLines a b)) ∧
    (∀ script, IsScript as bs script →
      lineCount SegmentKind.changed (diffLines a b) ≤ (editLines SegmentKind.changed script).length) ∧
    lineCount SegmentKind.kept (diffLines b a) = lineCount SegmentKind.kept (diffLines a b) := by
  obtain rfl := ha.eq_linesOf
  obtain rfl := hb.eq_linesOf
  have h' : ¬(b = "" ∧ a = "") := fun ⟨hb, ha⟩ => h ⟨ha, hb⟩
  rw [kept_diffLines h, kept_diffLines h']
  exact ⟨⟨exists_common _ _, fun c => length_le_commonLength⟩, fun script => changed_diffLines_le,
    commonLength_comm _ _⟩

/-- Of three lines that come in another order two are kept, and two changes are needed. -/
theorem diffLines_of_reordered_lines :
    IsLines "a\nb\nc" ["a", "b", "c"] ∧ IsLines "b\nc\na" ["b", "c", "a"] ∧
      lineCount SegmentKind.kept (diffLines "a\nb\nc" "b\nc\na") = 2 ∧
      ∀ script, IsScript ["a", "b", "c"] ["b", "c", "a"] script →
        2 ≤ (editLines SegmentKind.changed script).length := by
  have hbefore : IsLines "a\nb\nc" ["a", "b", "c"] := ⟨by decide +kernel, by decide +kernel, by simp⟩
  have hafter : IsLines "b\nc\na" ["b", "c", "a"] := ⟨by decide +kernel, by decide +kernel, by simp⟩
  obtain ⟨-, hleast, -⟩ := diffLines_keeps_most hbefore hafter (by decide)
  have hchanged : lineCount SegmentKind.changed (diffLines "a\nb\nc" "b\nc\na") = 2 := by decide +kernel
  rw [hchanged] at hleast
  exact ⟨hbefore, hafter, by decide +kernel, hleast⟩

end StrategyBench.Compare

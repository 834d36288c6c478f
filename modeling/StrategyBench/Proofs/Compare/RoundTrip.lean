/-
StrategyBench.Proofs.Compare.RoundTrip — a line difference holds both of its texts.

The walk only ever moves a line from one of its inputs to its output, so whatever the table says it
is an edit script from the first list of lines to the second (`isScript_walk`). Joining neighbours
of one kind moves no line either (`segmentLines_merge`), and a segment always has a line, so that a
segment of one blank line is not lost among the newlines (`rebuild_eq_intercalate`). Hence both
texts can be read off the segments (`rebuild_diffLines`).
-/

import StrategyBench.Compare.Lines

namespace StrategyBench.Compare

/-! ## Lines of a text -/

theorem splitLines_ne_nil (cs : List Char) : splitLines cs ≠ [] := by
  cases cs with
  | nil => simp [splitLines]
  | cons c cs =>
    unfold splitLines
    split
    · simp
    · split <;> simp

theorem splitLines_newline (cs : List Char) : splitLines ('\n' :: cs) = [] :: splitLines cs := by
  simp [splitLines]

theorem splitLines_cons {c : Char} (hc : c ≠ '\n') {cs l : List Char} {ls : List (List Char)}
    (h : splitLines cs = l :: ls) : splitLines (c :: cs) = (c :: l) :: ls := by
  simp [splitLines, hc, h]

theorem splitLines_append (xs ys : List Char) :
    splitLines (xs ++ '\n' :: ys) = splitLines xs ++ splitLines ys := by
  induction xs with
  | nil => exact splitLines_newline ys
  | cons x xs ih =>
    obtain ⟨l, ls, hl⟩ := List.exists_cons_of_ne_nil (splitLines_ne_nil xs)
    by_cases hx : x = '\n'
    · subst hx
      rw [List.cons_append, splitLines_newline, splitLines_newline, ih, List.cons_append]
    · rw [hl, List.cons_append] at ih
      rw [List.cons_append, splitLines_cons hx ih, splitLines_cons hx hl, List.cons_append]

theorem intercalate_splitLines (cs : List Char) : ['\n'].intercalate (splitLines cs) = cs := by
  induction cs with
  | nil => rfl
  | cons c cs ih =>
    obtain ⟨l, ls, hl⟩ := List.exists_cons_of_ne_nil (splitLines_ne_nil cs)
    by_cases hc : c = '\n'
    · subst hc
      rw [hl] at ih
      rw [splitLines_newline, hl, List.intercalate_cons_cons, ih]
      rfl
    · rw [splitLines_cons hc hl]
      rw [hl] at ih
      cases ls with
      | nil =>
        rw [List.intercalate_singleton] at ih ⊢
        rw [ih]
      | cons l' ls =>
        rw [List.intercalate_cons_cons] at ih ⊢
        rw [List.cons_append, List.cons_append, ih]

theorem linesOf_ne_nil (s : String) : linesOf s ≠ [] := by
  simp [linesOf, splitLines_ne_nil]

theorem linesOf_append (s t : String) : linesOf (s ++ "\n" ++ t) = linesOf s ++ linesOf t := by
  have hchars : (s ++ "\n" ++ t).toList = s.toList ++ '\n' :: t.toList := by simp
  rw [linesOf, hchars, splitLines_append, List.map_append]
  rfl

/-- The lines of a text, joined again, are the text. -/
theorem intercalate_linesOf (s : String) : "\n".intercalate (linesOf s) = s := by
  rw [← String.toList_inj, String.toList_intercalate, linesOf, List.map_map]
  have hid : String.toList ∘ String.ofList = id := funext fun cs => String.toList_ofList
  rw [hid, List.map_id]
  exact intercalate_splitLines s.toList

theorem intercalate_flatMap_linesOf (texts : List String) :
    "\n".intercalate (texts.flatMap linesOf) = "\n".intercalate texts := by
  induction texts with
  | nil => rfl
  | cons t ts ih =>
    rw [List.flatMap_cons]
    cases ts with
    | nil => simp [intercalate_linesOf]
    | cons u us =>
      have hrest : (u :: us).flatMap linesOf ≠ [] := by simp [linesOf_ne_nil]
      rw [String.intercalate_append_of_ne_nil (linesOf_ne_nil t) hrest, ih, intercalate_linesOf,
        String.intercalate_cons_cons]

/-! ## Edit scripts -/

/-- The kinds of line that the first text has. -/
def SegmentKind.ofBefore : SegmentKind → Bool
  | .equal | .removed => true
  | .added => false

/-- The kinds of line that the second text has. -/
def SegmentKind.ofAfter : SegmentKind → Bool
  | .equal | .added => true
  | .removed => false

/-- The lines of the chosen kinds. -/
def editLines (p : SegmentKind → Bool) (edits : List (SegmentKind × String)) : List String :=
  (edits.filter fun e => p e.1).map Prod.snd

@[simp] theorem editLines_cons (p : SegmentKind → Bool) (k : SegmentKind) (l : String)
    (edits : List (SegmentKind × String)) :
    editLines p ((k, l) :: edits) = if p k then l :: editLines p edits else editLines p edits := by
  by_cases h : p k = true <;> simp [editLines, h]

/-- The edits lead from the one list of lines to the other. -/
structure IsScript (as bs : List String) (edits : List (SegmentKind × String)) : Prop where
  before : editLines SegmentKind.ofBefore edits = as
  after : editLines SegmentKind.ofAfter edits = bs

section Steps

variable {as bs : List String} {edits : List (SegmentKind × String)}

theorem IsScript.keep (h : IsScript as bs edits) (l : String) :
    IsScript (l :: as) (l :: bs) ((.equal, l) :: edits) :=
  ⟨by simp [SegmentKind.ofBefore, h.before], by simp [SegmentKind.ofAfter, h.after]⟩

theorem IsScript.remove (h : IsScript as bs edits) (l : String) :
    IsScript (l :: as) bs ((.removed, l) :: edits) :=
  ⟨by simp [SegmentKind.ofBefore, h.before], by simp [SegmentKind.ofAfter, h.after]⟩

theorem IsScript.add (h : IsScript as bs edits) (l : String) :
    IsScript as (l :: bs) ((.added, l) :: edits) :=
  ⟨by simp [SegmentKind.ofBefore, h.before], by simp [SegmentKind.ofAfter, h.after]⟩

end Steps

theorem isScript_removeAll (as : List String) : IsScript as [] (as.map (SegmentKind.removed, ·)) := by
  induction as with
  | nil => exact ⟨rfl, rfl⟩
  | cons a as ih => exact ih.remove a

theorem isScript_addAll (bs : List String) : IsScript [] bs (bs.map (SegmentKind.added, ·)) := by
  induction bs with
  | nil => exact ⟨rfl, rfl⟩
  | cons b bs ih => exact ih.add b

/-- Whatever the table says, the walk leads from the one list to the other. -/
theorem isScript_walk (as bs : List String) (rows : List (List Nat)) : IsScript as bs (walk as bs rows) := by
  induction as generalizing bs rows with
  | nil =>
    rw [walk]
    exact isScript_addAll bs
  | cons a as iha =>
    induction bs generalizing rows with
    | nil =>
      rw [walk]
      · exact isScript_removeAll (a :: as)
      · simp
    | cons b bs ihb =>
      rw [walk]
      split
      · rename_i heq
        subst heq
        exact (iha bs _).keep a
      · split
        · exact (iha (b :: bs) _).remove a
        · exact (ihb _).add b

/-! ## Segments -/

/-- The lines of the segments of the chosen kinds. -/
def segmentLines (p : SegmentKind → Bool) (segments : List Segment) : List String :=
  (segments.filter fun s => p s.kind).flatMap fun s => linesOf s.value

/-- The text of the segments of the chosen kinds. -/
def rebuild (p : SegmentKind → Bool) (segments : List Segment) : String :=
  "\n".intercalate ((segments.filter fun s => p s.kind).map Segment.value)

/-- No segment is without lines, so that a text is made of the lines of its segments. -/
theorem rebuild_eq_intercalate (p : SegmentKind → Bool) (segments : List Segment) :
    rebuild p segments = "\n".intercalate (segmentLines p segments) := by
  have hlines : segmentLines p segments =
      ((segments.filter fun s => p s.kind).map Segment.value).flatMap linesOf := by
    rw [List.flatMap_map]
    rfl
  rw [hlines, intercalate_flatMap_linesOf]
  rfl

theorem segmentLines_cons (p : SegmentKind → Bool) (seg : Segment) (segs : List Segment) :
    segmentLines p (seg :: segs) =
      if p seg.kind then linesOf seg.value ++ segmentLines p segs else segmentLines p segs := by
  by_cases h : p seg.kind = true <;> simp [segmentLines, h]

theorem segmentLines_merge_cons (p : SegmentKind → Bool) (k : SegmentKind) (l : String)
    (edits : List (SegmentKind × String)) :
    segmentLines p (merge ((k, l) :: edits)) = segmentLines p (⟨k, l⟩ :: merge edits) := by
  rw [merge]
  split
  · rename_i hnil
    rw [hnil]
  · rename_i seg segs hcons
    rw [hcons]
    split
    · rename_i hk
      obtain ⟨k', value⟩ := seg
      obtain rfl : k' = k := hk
      by_cases hp : p k' = true <;> simp [segmentLines_cons, hp, linesOf_append]
    · rfl

/-- Joining neighbours of one kind moves no line. -/
theorem segmentLines_merge (p : SegmentKind → Bool) (edits : List (SegmentKind × String)) :
    segmentLines p (merge edits) = (editLines p edits).flatMap linesOf := by
  induction edits with
  | nil => rfl
  | cons e edits ih =>
    obtain ⟨k, l⟩ := e
    rw [segmentLines_merge_cons, segmentLines_cons, ih, editLines_cons]
    split
    · rw [List.flatMap_cons]
    · rfl

theorem rebuild_merge (p : SegmentKind → Bool) (edits : List (SegmentKind × String)) :
    rebuild p (merge edits) = "\n".intercalate (editLines p edits) := by
  rw [rebuild_eq_intercalate, segmentLines_merge, intercalate_flatMap_linesOf]

/-- The segments that are kept or removed join to the first text, and those that are kept or added
    to the second. -/
theorem rebuild_diffLines (a b : String) :
    rebuild SegmentKind.ofBefore (diffLines a b) = a ∧ rebuild SegmentKind.ofAfter (diffLines a b) = b := by
  unfold diffLines
  split
  · rename_i heq
    subst heq
    split
    · rename_i hempty
      have ha : a = "" := by simpa using hempty
      exact ⟨ha.symm, ha.symm⟩
    · simp [rebuild, SegmentKind.ofBefore, SegmentKind.ofAfter]
  · have h := isScript_walk (linesOf a) (linesOf b) (table (linesOf b) (linesOf a))
    rw [rebuild_merge, rebuild_merge, h.before, h.after]
    exact ⟨intercalate_linesOf a, intercalate_linesOf b⟩

/-- A blank line that is put in front is a segment of its own. -/
example : diffLines "x" "\nx" = [⟨.added, ""⟩, ⟨.equal, "x"⟩] := by decide +kernel

end StrategyBench.Compare

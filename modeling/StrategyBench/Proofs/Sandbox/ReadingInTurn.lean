/-
StrategyBench.Proofs.Sandbox.ReadingInTurn — a table that is read as an object, entry by entry.

A table that is read as an object has nothing but names over what is not skipped (`Named`), and the values
under them are read one after the other (`inTurn_of_members`). Each of them is read as it would be on its own
(`covers_toJson`), and two tables that have the same under every name are read in lock step: neither can reach
itself, so what differs between them is never looked at (`alike_toJson`).
-/

import Mathlib.Data.List.Sort
import StrategyBench.Proofs.Lua.SideBySide
import StrategyBench.Proofs.Sandbox.Reading

namespace StrategyBench.Sandbox.Exchange

open Lua Program

variable {ε : Type}

/-! ## Entries under names -/

/-- An entry that is left out of an object. -/
def isLeftOut (e : Value × Value) : Bool := isSkipped e.1 || isSkipped e.2

/-- Entries, and the values under names that are those of them that are not left out. -/
def Named (entries : List (Value × Value)) (named : List (String × Value)) : Prop :=
  entries.filter (fun e => !isLeftOut e) = named.map fun m => (.ofString m.1, m.2)

section Named

variable {entries : List (Value × Value)} {named : List (String × Value)} {e : Value × Value} {q : String} {v : Value}

theorem named_nil : Named [] [] := rfl

theorem Named.skip (h : Named entries named) (he : isLeftOut e = true) : Named (e :: entries) named := by
  rw [Named, List.filter_cons_of_neg (by simp [he])]
  exact h

theorem Named.cons (h : Named entries named) (hv : isSkipped v = false) :
    Named ((.ofString q, v) :: entries) ((q, v) :: named) := by
  have hkept : isLeftOut (.ofString q, v) = false := by
    rw [isLeftOut, hv]
    rfl
  rw [Named, List.filter_cons_of_pos (by simp [hkept]), List.map_cons, h]

theorem Named.mem_iff (h : Named entries named) :
    (q, v) ∈ named ↔ (Value.ofString q, v) ∈ entries ∧ isSkipped v = false := by
  have hfilter : (Value.ofString q, v) ∈ entries.filter (fun e => !isLeftOut e) ↔
      (Value.ofString q, v) ∈ entries ∧ isSkipped v = false := by
    rw [List.mem_filter, Bool.not_eq_true', isLeftOut]
    exact Iff.rfl
  rw [← hfilter, h, List.mem_map]
  constructor
  · exact fun hmem => ⟨_, hmem, rfl⟩
  · rintro ⟨⟨p, w⟩, hmem, heq⟩
    obtain ⟨hname, rfl⟩ := Prod.mk.inj heq
    obtain rfl := ofString_inj.mp hname
    exact hmem

/-- What is not left out stands under a name. -/
theorem Named.isLeftOut (h : Named entries named) {k : Value} (he : (k, v) ∈ entries) (hk : ∀ q, k ≠ .ofString q) :
    isLeftOut (k, v) = true := by
  by_contra hkept
  have hmem : (k, v) ∈ entries.filter (fun e => !Exchange.isLeftOut e) := List.mem_filter.mpr ⟨he, by simpa using hkept⟩
  rw [h] at hmem
  obtain ⟨m, -, heq⟩ := List.mem_map.mp hmem
  exact hk m.1 (Prod.mk.inj heq).1.symm

/-- The values under names come in the order of the names. -/
theorem Named.pairwise {t : Table} (h : Named t.entries named) :
    named.Pairwise fun m n => Value.keyOrder (.ofString m.1) (.ofString n.1) = .lt := by
  have hdense : (t.denseEntries 1 t.dense.size).filter (fun e => !Exchange.isLeftOut e) = [] := by
    refine List.filter_eq_nil_iff.mpr fun e he => ?_
    obtain ⟨n, -, -, rfl, -⟩ := Table.exists_place_of_mem he
    rw [h.isLeftOut (List.mem_append_left _ he) nofun]
    decide
  have hkeyed : t.keyedEntries.filter (fun e => !Exchange.isLeftOut e) = named.map fun m => (.ofString m.1, m.2) := by
    rw [← h, Table.entries, List.filter_append, hdense, List.nil_append]
  have hordered := t.pairwise_keyedEntries.filter fun e => !Exchange.isLeftOut e
  rw [hkeyed] at hordered
  exact List.pairwise_map.mp hordered

theorem Named.nodup {t : Table} (h : Named t.entries named) : (named.map Prod.fst).Nodup := by
  refine List.pairwise_map.mpr (h.pairwise.imp fun hlt heq => ?_)
  rw [heq] at hlt
  exact nomatch Std.ReflCmp.compare_self.symm.trans hlt

/-- Tables that have the same under every name have the same values under names. -/
theorem Named.unique {t u : Table} {named' : List (String × Value)} (ht : t.Sound) (htsize : t.dense.size < 2 ^ 63)
    (hu : u.Sound) (husize : u.dense.size < 2 ^ 63) (hsame : ∀ q, t.get (.ofString q) = u.get (.ofString q))
    (h : Named t.entries named) (h' : Named u.entries named') : named = named' := by
  have hirrefl : Std.Irrefl fun m n : String × Value => Value.keyOrder (.ofString m.1) (.ofString n.1) = .lt :=
    ⟨fun m hm => nomatch Std.ReflCmp.compare_self.symm.trans hm⟩
  have hantisymm : Std.Antisymm fun m n : String × Value => Value.keyOrder (.ofString m.1) (.ofString n.1) = .lt :=
    ⟨fun m n hmn hnm => nomatch (Std.OrientedCmp.gt_of_lt hmn).symm.trans hnm⟩
  refine h.pairwise.eq_of_mem_iff h'.pairwise fun ⟨q, v⟩ => ?_
  have hmem : (Value.ofString q, v) ∈ t.entries ↔ (Value.ofString q, v) ∈ u.entries := by
    have hget := hsame q
    rw [Value.ofString] at hget ⊢
    rw [Table.mem_entries_str_iff ht htsize, Table.mem_entries_str_iff hu husize, hget]
  rw [h.mem_iff, h'.mem_iff, hmem]

end Named

/-! ## Refusals -/

theorem of_unvisited {visited : List Nat} {v : Value} {h h' : Heap} {es : List ε} {u : Unit}
    (hrun : (unvisited visited v).Runs h u h' es) : (∀ t, v = .table t → t ∉ visited) ∧ h' = h ∧ es = [] := by
  unfold unvisited at hrun
  split at hrun
  · rename_i t
    split at hrun
    · exact absurd hrun (runs_fail _)
    · rename_i hnew
      obtain ⟨-, rfl, rfl⟩ := runs_done_iff.mp hrun
      refine ⟨fun s hs => ?_, rfl, rfl⟩
      obtain rfl := Value.table.inj hs
      simpa using hnew
  · rename_i hnone
    obtain ⟨-, rfl, rfl⟩ := runs_done_iff.mp hrun
    exact ⟨fun t ht => absurd ht (hnone t), rfl, rfl⟩

theorem of_keyText {arrayMeta : Nat} {k : Value} {name : String} {h h' : Heap} {es : List ε}
    (hrun : (keyText arrayMeta k).Runs h name h' es) : k = .ofString name ∧ h' = h ∧ es = [] := by
  have hwrong {p : Program ε String} {h : Heap} {es : List ε} (f : String → Raise)
      (hrun : (p >>= fun s => fail (f s) : Program ε String).Runs h name h' es) : False := by
    obtain ⟨_, _, _, _, -, hfail, -⟩ := runs_bind_iff.mp hrun
    exact runs_fail _ hfail
  unfold keyText at hrun
  split at hrun
  · rename_i s
    split at hrun
    · rename_i text htext
      obtain ⟨rfl, rfl, rfl⟩ := runs_done_iff.mp hrun
      exact ⟨congrArg Value.str (Bytes.eq_ofString_of_text? htext), rfl, rfl⟩
    · exact (hwrong _ hrun).elim
  · exact (hwrong _ hrun).elim

/-! ## Members in turn -/

/-- Between two heaps a table has been looked at, and no other. -/
structure LookedAt (t : Nat) (h g : Heap) : Prop where
  similar : h.Similar g
  beside : h.SameBeside (· = t) g

namespace LookedAt

variable {t : Nat} {h g k : Heap}

theorem refl (t : Nat) (h : Heap) : LookedAt t h h := ⟨.refl h, .refl _ h⟩

theorem trans (hg : LookedAt t h g) (gk : LookedAt t g k) : LookedAt t h k :=
  ⟨hg.similar.trans gk.similar, hg.beside.trans gk.beside⟩

theorem rawGet (t : Nat) (h : Heap) (key : Value) : LookedAt t h (h.modifyTable t (·.touch key)) :=
  ⟨similar_rawGet h t key, .modifyTable_alone h t _⟩

theorem border (t : Nat) (h : Heap) : LookedAt t h (h.modifyTable t fun _ => (h.table t).border.2) :=
  ⟨similar_border h t, .modifyTable_alone h t _⟩

end LookedAt

/-- The values under names, read one after the other; in between the table that they are in is looked at. -/
inductive ReadInTurn (read : Value → Program ε Json) (t : Nat) :
    Heap → List (String × Value) → List (String × Json) → Heap → Prop
  | nil {h g : Heap} (hlooked : LookedAt t h g) : ReadInTurn read t h [] [] g
  | cons {h g k l : Heap} {q : String} {v : Value} {j : Json} {named : List (String × Value)}
    {ms : List (String × Json)} (hlooked : LookedAt t h g) (hread : (read v).Runs g j k [])
    (hrest : ReadInTurn read t k named ms l) :
    ReadInTurn read t h ((q, v) :: named) ((q, j) :: ms) l

section InTurn

variable {read : Value → Program ε Json} {t : Nat} {h g g' : Heap} {named : List (String × Value)}
  {ms : List (String × Json)}

theorem ReadInTurn.earlier (hturn : ReadInTurn read t g named ms g') (hlooked : LookedAt t h g) :
    ReadInTurn read t h named ms g' := by
  cases hturn with
  | nil hg => exact .nil (hlooked.trans hg)
  | cons hg hread hrest => exact .cons (hlooked.trans hg) hread hrest

/-- Each value has been read, wherever borders were last seen then. -/
theorem ReadInTurn.forall₂ (hlooks : ∀ v, (read v).Looks) (hturn : ReadInTurn read t h named ms g') :
    List.Forall₂ (fun n m => n.1 = m.1 ∧ ∃ g g', h.Similar g ∧ (read n.2).Runs g m.2 g' []) named ms := by
  suffices hall : ∀ {h₀ : Heap}, h₀.Similar h →
      List.Forall₂ (fun n m => n.1 = m.1 ∧ ∃ g g', h₀.Similar g ∧ (read n.2).Runs g m.2 g' []) named ms from
    hall (.refl h)
  intro h₀ h₀h
  induction hturn with
  | nil => exact .nil
  | cons hlooked hread _ ih =>
    have hg := h₀h.trans hlooked.similar
    exact .cons ⟨rfl, _, _, hg, hread⟩ (ih (hg.trans ((hlooks _).of_runs hread).1))

/-- Reading the members that are still ahead is reading the values under names, in turn. -/
theorem inTurn_of_members {arrayMeta : Nat} {visited : List Nat} (hsound : (h.table t).Sound)
    (hsize : (h.table t).dense.size < 2 ^ 63) (hlooks : ∀ v, (read v).Looks) {ahead : List (Value × Value)}
    {key : Value} (hahead : (h.table t).Ahead key ahead) (hentries : ∀ e ∈ ahead, (h.table t).HasEntry e.1 e.2)
    (hkey : key.normalKey = key) {n : Nat} (hn : ahead.length ≤ n) {acc ms : List (String × Json)} {es : List ε}
    (hg : h.Similar g) (hrun : (members arrayMeta read visited t acc key n).Runs g ms g' es) :
    ∃ named js, Named ahead named ∧ (∀ m ∈ named, ∀ s, m.2 = .table s → s ∉ visited) ∧
      ReadInTurn read t g named js g' ∧ ms = js.foldl (fun acc m => Json.insertMember m.1 m.2 acc) acc := by
  induction ahead generalizing key n acc g es with
  | nil =>
    have hend : ms = acc ∧ g' = g := by
      cases n with
      | zero =>
        obtain ⟨rfl, rfl, -⟩ := runs_done_iff.mp hrun
        exact ⟨rfl, rfl⟩
      | succ n =>
        obtain ⟨k, _, _, _, hstep, hrest, -⟩ := runs_bind_iff.mp hrun
        obtain ⟨rfl, rfl, -⟩ := hstep.unique (runs_next_of_ahead hsound hsize hahead hkey hg)
        obtain ⟨rfl, rfl, -⟩ := runs_done_iff.mp hrest
        exact ⟨rfl, rfl⟩
    obtain ⟨rfl, rfl⟩ := hend
    exact ⟨[], [], named_nil, by simp, .nil (.refl t _), rfl⟩
  | cons e ahead ih =>
    obtain ⟨k, v⟩ := e
    rw [List.length_cons] at hn
    obtain ⟨n, rfl⟩ := Nat.exists_eq_add_of_le' (Nat.one_le_of_lt hn)
    have hentry : (h.table t).HasEntry k v := hentries _ List.mem_cons_self
    have hfirst : (op (.next t key) : Program ε Value).Runs g k g [] := runs_next_of_ahead hsound hsize hahead hkey hg
    obtain ⟨_, _, _, _, hstep, hrest, -⟩ := runs_bind_iff.mp hrun
    obtain ⟨rfl, rfl, -⟩ := hfirst.unique hstep
    rw [hentry.isKey, if_neg Bool.false_ne_true] at hrest
    obtain ⟨w, _, _, _, hget, hrest, -⟩ := runs_bind_iff.mp hrest
    obtain ⟨rfl, rfl, -⟩ := hget.unique (runs_rawGet hentry.normal (((hg.table t).get k).trans hentry.get))
    have hlooked := LookedAt.rawGet t g k
    obtain ⟨_, _, _, _, hunvisited, hrest, -⟩ := runs_bind_iff.mp hrest
    obtain ⟨-, rfl, -⟩ := of_unvisited hunvisited
    obtain ⟨_, _, _, _, hunvisited, hrest, -⟩ := runs_bind_iff.mp hrest
    obtain ⟨hnew, rfl, -⟩ := of_unvisited hunvisited
    have hothers {acc : List (String × Json)} {g : Heap} (hg : h.Similar g) {es : List ε}
        (hrun : (members arrayMeta read visited t acc k n).Runs g ms g' es) :=
      ih hahead.tail (fun e he => hentries e (List.mem_cons_of_mem _ he)) hentry.normal (by omega) hg hrun
    split at hrest
    · rename_i hskipped
      obtain ⟨named, js, hnamed, hnews, hturn, hms⟩ := hothers (hg.trans hlooked.similar) hrest
      exact ⟨named, js, hnamed.skip hskipped, hnews, hturn.earlier hlooked, hms⟩
    · rename_i hkept
      obtain ⟨-, hvalue⟩ := Bool.or_eq_false_iff.mp (Bool.eq_false_iff.mpr hkept)
      obtain ⟨name, _, _, _, htext, hrest, -⟩ := runs_bind_iff.mp hrest
      obtain ⟨rfl, rfl, -⟩ := of_keyText htext
      obtain ⟨j, _, _, _, hread, hrest, -⟩ := runs_bind_iff.mp hrest
      obtain ⟨hsimilar, rfl⟩ := (hlooks _).of_runs hread
      obtain ⟨named, js, hnamed, hnews, hturn, hms⟩ := hothers ((hg.trans hlooked.similar).trans hsimilar) hrest
      exact ⟨(name, w) :: named, (name, j) :: js, hnamed.cons hvalue, List.forall_mem_cons.mpr ⟨hnew, hnews⟩,
        .cons hlooked hread hturn, hms⟩

end InTurn

/-! ## Arrays and objects, told apart -/

/-- A table that is read as an array: its length is not zero, as a program is told it, or it is marked as one. -/
def TakenForArray (arrayMeta : Nat) (h : Heap) (t : Nat) : Prop :=
  0 < natOf (.ofNat (h.table t).border.1) ∨ (h.table t).meta? = some arrayMeta

/-- A value in the first place makes a table an array. -/
theorem takenForArray_of_first (arrayMeta : Nat) {t : Nat} {h : Heap} (hsize : (h.table t).dense.size < 2 ^ 62)
    (hlimit : (h.table t).limit ≤ (h.table t).dense.size) (hdense : 0 < (h.table t).dense.size)
    (hfirst : ((h.table t).get (.int 1)).isNil = false) : TakenForArray arrayMeta h t := by
  obtain ⟨hpos, hbound⟩ := Table.border_of_first hsize hlimit hdense hfirst
  refine .inl ?_
  rwa [Value.ofNat, natOf, toNat_ofNat hbound]

/-- A table without integer keys that is not marked is none. -/
theorem not_takenForArray {arrayMeta t : Nat} {h : Heap} (hmeta : (h.table t).meta? ≠ some arrayMeta)
    (hnone : ∀ i, (h.table t).getInt i = .nil) : ¬TakenForArray arrayMeta h t := by
  rw [TakenForArray, Table.border_of_no_integers hnone, not_or]
  exact ⟨by decide, hmeta⟩

theorem of_isArray {arrayMeta t : Nat} {b : Bool} {h h' : Heap} {es : List ε}
    (hrun : (isArray arrayMeta t).Runs h b h' es) :
    (b = true ↔ TakenForArray arrayMeta h t) ∧ LookedAt t h h' ∧ es = [] := by
  have hlooked := LookedAt.border t h
  obtain ⟨_, _, _, _, hborder, hrest, rfl⟩ := runs_bind_iff.mp hrun
  obtain ⟨rfl, rfl, rfl⟩ := hborder.unique (runs_border t)
  split at hrest
  · rename_i hlength
    obtain ⟨rfl, rfl, rfl⟩ := runs_done_iff.mp hrest
    exact ⟨iff_of_true rfl (.inl hlength), hlooked, rfl⟩
  · rename_i hlength
    obtain ⟨_, _, _, _, hmeta, hdone, rfl⟩ := runs_bind_iff.mp hrest
    obtain ⟨rfl, rfl, rfl⟩ := hmeta.unique (runs_metatable? t)
    obtain ⟨rfl, rfl, rfl⟩ := runs_done_iff.mp hdone
    refine ⟨?_, hlooked, rfl⟩
    rw [decide_eq_true_iff, (hlooked.similar.table t).meta?, TakenForArray, or_iff_right hlength]

theorem exists_isArray (arrayMeta t : Nat) (h : Heap) :
    ∃ b g, (isArray arrayMeta t : Program ε Bool).Runs h b g [] := by
  have hrest (n : Nat) (g : Heap) : ∃ b, (do
      if 0 < n then return true
      return (← metatable? (.table t)) = some arrayMeta : Program ε Bool).Runs g b g [] := by
    split
    · exact ⟨true, runs_done⟩
    · exact ⟨_, (runs_metatable? t).bind runs_done⟩
  obtain ⟨b, hb⟩ := hrest (natOf (.ofNat (h.table t).border.1)) (h.modifyTable t fun _ => (h.table t).border.2)
  exact ⟨b, _, (runs_border t).bind hb⟩

theorem size_lt_of_places {t : Table} (hplaces : t.places ≤ maxElements) : t.dense.size < 2 ^ 63 := by
  have hbound := maxElements_lt
  rw [Table.places] at hplaces
  omega

/-- What a table of no more places than are read is read as: an array, or the members that are read in turn of what
stands under names in it. -/
theorem of_read_table {arrayMeta t : Nat} {raw : Json} {h h' : Heap} {es : List ε} (hsound : (h.table t).Sound)
    (hplaces : (h.table t).places ≤ maxElements) (hrun : (read arrayMeta (.table t)).Runs h raw h' es) :
    (TakenForArray arrayMeta h t ∧ ∃ js, raw = .arr js) ∨
    (¬TakenForArray arrayMeta h t ∧ ∃ named ms, Named (h.table t).entries named ∧
      (∀ n ∈ named, ∀ s, n.2 = .table s → s ≠ t) ∧
      ReadInTurn (toJson (ε := ε) arrayMeta h.tables.size [t]) t h named ms h' ∧ raw = Json.ofMembers ms) := by
  have hsize := size_lt_of_places hplaces
  obtain ⟨_, _, _, _, hcount, hjson, rfl⟩ := runs_bind_iff.mp hrun
  obtain ⟨rfl, rfl, rfl⟩ := hcount.unique runs_tableCount
  obtain ⟨b, g, _, _, hisArray, hrest, -⟩ := runs_bind_iff.mp hjson
  obtain ⟨htaken, hlooked, rfl⟩ := of_isArray hisArray
  split at hrest
  · rename_i hb
    obtain ⟨js, _, _, _, -, hdone, rfl⟩ := runs_bind_iff.mp hrest
    obtain ⟨rfl, -, -⟩ := runs_done_iff.mp hdone
    exact .inl ⟨htaken.mp hb, _, rfl⟩
  · rename_i hb
    obtain ⟨ms, _, _, _, hmembers, hdone, rfl⟩ := runs_bind_iff.mp hrest
    obtain ⟨rfl, rfl, -⟩ := runs_done_iff.mp hdone
    obtain ⟨named, js, hnamed, hnew, hturn, rfl⟩ := inTurn_of_members hsound hsize (looks_toJson _ _ _) .start
      (fun e he => Table.hasEntry_of_mem hsound hsize he) rfl ((Table.length_entries_le _).trans hplaces)
      hlooked.similar hmembers
    exact .inr ⟨fun htable => hb (htaken.mpr htable), named, js, hnamed,
      fun n hn s hs => by simpa using hnew n hn s hs, hturn.earlier hlooked, rfl⟩

/-! ## Fewer tables around a value -/

section Covers

variable {read read' : Value → Program ε Json} {visited visited' : List Nat}

theorem covers_unvisited (hsub : visited' ⊆ visited) (v : Value) :
    (unvisited visited v : Program ε Unit).Covers (unvisited visited' v) := by
  intro h u h' es hrun
  obtain ⟨hnew, rfl, rfl⟩ := of_unvisited hrun
  exact runs_unvisited fun t ht hmem => hnew t ht (hsub hmem)

theorem covers_elements (hread : ∀ v, (read v).Covers (read' v)) (hsub : visited' ⊆ visited) (t : Nat)
    (acc : List Json) (i : Int64) (n : Nat) :
    (elements read visited t acc i n).Covers (elements read' visited' t acc i n) := by
  induction n generalizing acc i with
  | zero => exact .refl _
  | succ n ih =>
    refine (Covers.refl _).bind fun v _ => ?_
    split
    · exact .refl _
    · refine (covers_unvisited hsub v).bind fun _ _ => ?_
      split
      · exact ih _ _
      · exact (hread v).bind fun j _ => ih _ _

theorem covers_members (arrayMeta : Nat) (hread : ∀ v, (read v).Covers (read' v)) (hsub : visited' ⊆ visited) (t : Nat)
    (acc : List (String × Json)) (key : Value) (n : Nat) :
    (members arrayMeta read visited t acc key n).Covers (members arrayMeta read' visited' t acc key n) := by
  induction n generalizing acc key with
  | zero => exact .refl _
  | succ n ih =>
    refine (Covers.refl _).bind fun k _ => ?_
    split
    · exact .refl _
    · refine (Covers.refl _).bind fun v _ => ?_
      refine (covers_unvisited hsub k).bind fun _ _ => ?_
      refine (covers_unvisited hsub v).bind fun _ _ => ?_
      split
      · exact ih _ _
      · exact (Covers.refl _).bind fun name _ => (hread v).bind fun j _ => ih _ _

/-- Where fewer tables are being read, and more levels are left, a value is read as the same. -/
theorem covers_toJson (arrayMeta : Nat) {depth depth' : Nat} (hdepth : depth ≤ depth') (hsub : visited' ⊆ visited)
    (v : Value) : (toJson arrayMeta depth visited v : Program ε Json).Covers (toJson arrayMeta depth' visited' v) := by
  induction depth generalizing depth' visited visited' v with
  | zero =>
    intro h j h' es hrun
    exact absurd hrun (runs_fail _)
  | succ depth ih =>
    obtain ⟨depth', rfl⟩ := Nat.exists_eq_add_of_le' (Nat.one_le_of_lt hdepth)
    unfold toJson
    cases v with
    | table t =>
      have hread := ih (Nat.le_of_succ_le_succ hdepth) (List.cons_subset_cons t hsub)
      refine (Covers.refl _).bind fun b _ => ?_
      split
      · exact (covers_elements hread (List.cons_subset_cons t hsub) _ _ _ _).bind fun js _ => .refl _
      · exact (covers_members _ hread (List.cons_subset_cons t hsub) _ _ _ _).bind fun ms _ => .refl _
    | _ => exact .refl _

end Covers

/-! ## Different tables around a value -/

section Alike

variable {apart : Nat → Prop} {read read' : Value → Program ε Json} {visited visited' : List Nat}

/-- A value that is none of the tables set apart. -/
def Beside (apart : Nat → Prop) (v : Value) : Prop := ∀ t, v = .table t → ¬apart t

theorem alike_unvisited (v : Value) :
    Alike apart (unvisited visited v : Program ε Unit) (unvisited visited' v) := by
  intro h g hg a h' es hrun b g' fs hrun'
  obtain ⟨-, rfl, -⟩ := of_unvisited hrun
  obtain ⟨-, rfl, -⟩ := of_unvisited hrun'
  exact ⟨rfl, hg⟩

theorem beside_of_unvisited (hvisited : ∀ u, apart u → u ∈ visited ∨ u ∈ visited') {v : Value} {a b : Unit}
    (hrun : (unvisited visited v : Program ε Unit).MayAnswer a)
    (hrun' : (unvisited visited' v : Program ε Unit).MayAnswer b) : Beside apart v := by
  obtain ⟨_, _, _, hrun⟩ := hrun
  obtain ⟨_, _, _, hrun'⟩ := hrun'
  intro t ht hapart
  exact (hvisited t hapart).elim ((of_unvisited hrun).1 t ht) ((of_unvisited hrun').1 t ht)

theorem alike_isArray (arrayMeta : Nat) {t : Nat} (ht : ¬apart t) :
    Alike apart (isArray arrayMeta t : Program ε Bool) (isArray arrayMeta t) := by
  refine (alike_border ht).bind fun n _ _ => ?_
  split
  · exact alike_done _
  · exact (alike_metatable? ht).bind fun _ _ _ => alike_done _

theorem alike_keyText (arrayMeta : Nat) (k : Value) :
    Alike apart (keyText arrayMeta k : Program ε String) (keyText arrayMeta k) := by
  intro h g hg a h' es hrun b g' fs hrun'
  obtain ⟨hk, rfl, -⟩ := of_keyText hrun
  obtain ⟨hk', rfl, -⟩ := of_keyText hrun'
  exact ⟨ofString_inj.mp (hk.symm.trans hk'), hg⟩

variable (hread : ∀ v, Beside apart v → Alike apart (read v) (read' v))
  (hvisited : ∀ u, apart u → u ∈ visited ∨ u ∈ visited')

include hread hvisited

theorem alike_elements {t : Nat} (ht : ¬apart t) (acc : List Json) (i : Int64) (n : Nat) :
    Alike apart (elements read visited t acc i n) (elements read' visited' t acc i n) := by
  induction n generalizing acc i with
  | zero => exact alike_done _
  | succ n ih =>
    refine (alike_rawGet ht _).bind fun v _ _ => ?_
    split
    · exact alike_done _
    · refine (alike_unvisited v).bind fun _ hnew hnew' => ?_
      split
      · exact ih _ _
      · exact (hread v (beside_of_unvisited hvisited hnew hnew')).bind fun j _ _ => ih _ _

theorem alike_members (arrayMeta : Nat) {t : Nat} (ht : ¬apart t) (acc : List (String × Json)) (key : Value) (n : Nat) :
    Alike apart (members arrayMeta read visited t acc key n) (members arrayMeta read' visited' t acc key n) := by
  induction n generalizing acc key with
  | zero => exact alike_done _
  | succ n ih =>
    refine (alike_next ht _).bind fun k _ _ => ?_
    split
    · exact alike_done _
    · refine (alike_rawGet ht _).bind fun v _ _ => ?_
      refine (alike_unvisited k).bind fun _ _ _ => ?_
      refine (alike_unvisited v).bind fun _ hnew hnew' => ?_
      split
      · exact ih _ _
      · refine (alike_keyText _ _).bind fun name _ _ => ?_
        exact (hread v (beside_of_unvisited hvisited hnew hnew')).bind fun j _ _ => ih _ _

omit hread in
/-- A value is read alike on heaps that differ in tables only that are being read around it, on one side or the
other. -/
theorem alike_toJson (arrayMeta depth : Nat) {v : Value} (hv : Beside apart v) :
    Alike apart (toJson arrayMeta depth visited v : Program ε Json) (toJson arrayMeta depth visited' v) := by
  induction depth generalizing visited visited' v with
  | zero => exact alike_of_fails (fun a ⟨_, _, _, hrun⟩ => runs_fail _ hrun) _
  | succ depth ih =>
    unfold toJson
    cases v with
    | str s =>
      dsimp only
      split
      · exact alike_done _
      · exact alike_of_fails (fun a ⟨_, _, _, hrun⟩ => runs_fail _ hrun) _
    | table t =>
      have ht : ¬apart t := hv t rfl
      have hvisited : ∀ u, apart u → u ∈ t :: visited ∨ u ∈ t :: visited' := fun u hu =>
        (hvisited u hu).imp (List.mem_cons_of_mem t) (List.mem_cons_of_mem t)
      have hread (v : Value) (hv : Beside apart v) := ih hvisited hv
      refine (alike_isArray arrayMeta ht).bind fun b _ _ => ?_
      split
      · exact (alike_elements hread hvisited ht _ _ _).bind fun js _ _ => alike_done _
      · exact (alike_members hread hvisited arrayMeta ht _ _ _).bind fun ms _ _ => alike_done _
    | _ => exact alike_done _

omit hvisited in
/-- The same values under names are read in turn to the same members. -/
theorem ReadInTurn.alike {t t' : Nat} {h h' g g' : Heap} {named : List (String × Value)} {ms ms' : List (String × Json)}
    (ht : apart t) (ht' : apart t') (hnamed : ∀ n ∈ named, Beside apart n.2) (hturn : ReadInTurn read t h named ms h')
    (hturn' : ReadInTurn read' t' g named ms' g') (hg : h.SameBeside apart g) : ms = ms' ∧ h'.SameBeside apart g' := by
  have hlooked {t : Nat} (ht : apart t) {h h' : Heap} (hlooked : LookedAt t h h') : h.SameBeside apart h' :=
    hlooked.beside.mono fun u hu => hu ▸ ht
  induction hturn generalizing g ms' with
  | nil hh =>
    cases hturn' with
    | nil hg' => exact ⟨rfl, (hlooked ht hh).symm.trans (hg.trans (hlooked ht' hg'))⟩
  | cons hh hrun _ ih =>
    cases hturn' with
    | cons hg' hrun' hrest' =>
      have hbefore := (hlooked ht hh).symm.trans (hg.trans (hlooked ht' hg'))
      obtain ⟨rfl, hafter⟩ := hread _ (hnamed _ List.mem_cons_self) hbefore hrun hrun'
      obtain ⟨rfl, hend⟩ := ih (fun n hn => hnamed n (List.mem_cons_of_mem _ hn)) hrest' hafter
      exact ⟨rfl, hend⟩

end Alike

/-- What is no table is read as the same wherever it is read. -/
theorem read_scalar {arrayMeta : Nat} {v : Value} (hv : ∀ s, v ≠ .table s) {h h' g g' : Heap} {j j' : Json}
    {es fs : List ε} (hrun : (read arrayMeta v).Runs h j h' es) (hrun' : (read arrayMeta v).Runs g j' g' fs) :
    j = j' := by
  obtain ⟨_, _, _, _, -, hjson, -⟩ := runs_bind_iff.mp hrun
  obtain ⟨_, _, _, _, -, hjson', -⟩ := runs_bind_iff.mp hrun'
  unfold toJson at hjson hjson'
  cases v with
  | str s =>
    dsimp only at hjson hjson'
    split at hjson
    · rename_i text htext
      rw [htext] at hjson'
      exact (runs_done_iff.mp hjson).1.trans (runs_done_iff.mp hjson').1.symm
    · exact absurd hjson (runs_fail _)
  | table t => exact absurd rfl (hv t)
  | _ => exact (runs_done_iff.mp hjson).1.trans (runs_done_iff.mp hjson').1.symm

end StrategyBench.Sandbox.Exchange

/-
StrategyBench.Proofs.Sandbox.Reading — values that show JSON, read as JSON.

Reading changes no table (`looks_read`), and what is read can be shown again, its objects in key order
(`obeys_read`). A table is read as its elements or as its members, those left out that are skipped
(`runs_array`, `runs_object`). So a value that shows a piece of JSON is read as that without the nulls
inside it (`runs_read`): elements and members that show null are skipped, and as the tables inside each
other are all different, the levels never run out.
-/

import Mathlib.Data.List.Forall2
import StrategyBench.Proofs.Lua.Traversal
import StrategyBench.Proofs.Sandbox.Declarations
import StrategyBench.Proofs.Sandbox.Showing

namespace StrategyBench.Sandbox.Exchange

open Lua Program

variable {ε : Type}

/-! ## Reading changes nothing -/

theorem looks_isArray (arrayMeta t : Nat) : (isArray arrayMeta t : Program ε Bool).Looks := by
  refine Looks.bind (looks_border _) fun n => ?_
  split
  · trivial
  · exact Looks.bind (looks_metatable? _) fun _ => trivial

theorem looks_keyName (arrayMeta : Nat) (key : Value) : (keyName arrayMeta key : Program ε String).Looks := by
  unfold keyName
  split
  case h_4 => exact Looks.bind (looks_isArray _ _) fun _ => trivial
  all_goals trivial

theorem looks_keyText (arrayMeta : Nat) (key : Value) : (keyText arrayMeta key : Program ε String).Looks := by
  have hwrong : Program.Looks (ε := ε) (do
      malformed (α := String) ("invalid type: " ++ (← keyName arrayMeta key) ++ ", expected a string key")) :=
    Looks.bind (looks_keyName _ _) fun _ => trivial
  unfold keyText
  split
  · split
    · trivial
    · exact hwrong
  · exact hwrong

theorem looks_unvisited (visited : List Nat) (v : Value) : (unvisited visited v : Program ε Unit).Looks := by
  unfold unvisited
  split
  · split <;> trivial
  · trivial

theorem looks_elements {read : Value → Program ε Json} (hread : ∀ v, (read v).Looks) (visited : List Nat) (t : Nat)
    (acc : List Json) (i : Int64) (n : Nat) : (elements read visited t acc i n).Looks := by
  induction n generalizing acc i with
  | zero => trivial
  | succ n ih =>
    refine Looks.bind (looks_rawGet _ _) fun v => ?_
    split
    · trivial
    · refine Looks.bind (looks_unvisited _ _) fun _ => ?_
      split
      · exact ih _ _
      · exact Looks.bind (hread v) fun _ => ih _ _

theorem looks_members (arrayMeta : Nat) {read : Value → Program ε Json} (hread : ∀ v, (read v).Looks)
    (visited : List Nat) (t : Nat) (acc : List (String × Json)) (key : Value) (n : Nat) :
    (members arrayMeta read visited t acc key n).Looks := by
  induction n generalizing acc key with
  | zero => trivial
  | succ n ih =>
    refine Looks.bind (p := op (.next t key)) ⟨rfl, fun _ => trivial⟩ fun key => ?_
    split
    · trivial
    · refine Looks.bind (looks_rawGet _ _) fun v => ?_
      refine Looks.bind (looks_unvisited _ _) fun _ => ?_
      refine Looks.bind (looks_unvisited _ _) fun _ => ?_
      split
      · exact ih _ _
      · refine Looks.bind (looks_keyText _ _) fun name => ?_
        exact Looks.bind (hread v) fun _ => ih _ _

theorem looks_toJson (arrayMeta depth : Nat) (visited : List Nat) (v : Value) :
    (toJson arrayMeta depth visited v : Program ε Json).Looks := by
  induction depth generalizing visited v with
  | zero => trivial
  | succ depth ih =>
    unfold toJson
    cases v with
    | str s => dsimp only; split <;> trivial
    | table t =>
      refine Looks.bind (looks_isArray _ _) fun isArray => ?_
      split
      · exact Looks.bind (looks_elements (ih _) _ _ _ _ _) fun _ => trivial
      · exact Looks.bind (looks_members _ (ih _) _ _ _ _ _) fun _ => trivial
    | _ => trivial

theorem looks_read (arrayMeta : Nat) (v : Value) : (read arrayMeta v : Program ε Json).Looks :=
  Looks.bind looks_tableCount fun _ => looks_toJson _ _ _ _

/-! ## What is read can be shown -/

section Obeys

variable {P : ε → Prop}

theorem obeys_elements {read : Value → Program ε Json} {Q : Json → Prop} (hread : ∀ v, (read v).Obeys P Q)
    (visited : List Nat) (t : Nat) {acc : List Json} (hacc : ∀ j ∈ acc, Q j) (i : Int64) (n : Nat) :
    (elements read visited t acc i n).Obeys P fun js => js.length ≤ acc.length + n ∧ ∀ j ∈ js, Q j := by
  induction n generalizing acc i with
  | zero => exact ⟨Nat.le_refl _, hacc⟩
  | succ n ih =>
    refine Emits.bind (emits_rawGet _ _) fun v => ?_
    split
    · exact ⟨Nat.le_add_right _ _, hacc⟩
    · refine Emits.bind (emits_unvisited _ _) fun _ => ?_
      split
      · exact (ih hacc _).mono fun js hjs => ⟨by omega, hjs.2⟩
      · refine Obeys.bind (hread v) fun j hj => ?_
        have hcons : ∀ i ∈ j :: acc, Q i := List.forall_mem_cons.mpr ⟨hj, hacc⟩
        refine (ih hcons _).mono fun js hjs => ⟨?_, hjs.2⟩
        have hlength := hjs.1
        rw [List.length_cons] at hlength
        omega

theorem length_insertMember_le (k : String) (j : Json) (ms : List (String × Json)) :
    (Json.insertMember k j ms).length ≤ ms.length + 1 := by
  fun_induction Json.insertMember k j ms <;> simp_all

theorem obeys_members (arrayMeta : Nat) {read : Value → Program ε Json} {Q : Json → Prop}
    (hread : ∀ v, (read v).Obeys P Q) (visited : List Nat) (t : Nat) {acc : List (String × Json)}
    (hacc : Json.Ascending acc ∧ ∀ m ∈ acc, Q m.2) (key : Value) (n : Nat) :
    (members arrayMeta read visited t acc key n).Obeys P fun ms =>
      ms.length ≤ acc.length + n ∧ Json.Ascending ms ∧ ∀ m ∈ ms, Q m.2 := by
  induction n generalizing acc key with
  | zero => exact ⟨Nat.le_refl _, hacc⟩
  | succ n ih =>
    refine Emits.bind (emits_op _) fun key => ?_
    split
    · exact ⟨Nat.le_add_right _ _, hacc⟩
    · refine Emits.bind (emits_rawGet _ _) fun v => ?_
      refine Emits.bind (emits_unvisited _ _) fun _ => ?_
      refine Emits.bind (emits_unvisited _ _) fun _ => ?_
      split
      · exact (ih hacc _).mono fun ms hms => ⟨by omega, hms.2⟩
      · refine Emits.bind (emits_keyText _ _) fun name => ?_
        refine Obeys.bind (hread v) fun j hj => ?_
        refine (ih ⟨Json.ascending_insertMember name j hacc.1, fun m hm => ?_⟩ _).mono fun ms hms => ⟨?_, hms.2⟩
        · rcases Json.mem_of_mem_insertMember hm with rfl | hm
          · exact hj
          · exact hacc.2 m hm
        · have := length_insertMember_le name j acc
          omega

/-- What can be read of a script: JSON that can be shown, with its objects in key order. -/
def Readable (j : Json) : Prop := Plain j ∧ j.Ordered

theorem obeys_toJson (arrayMeta depth : Nat) (visited : List Nat) (v : Value) :
    (toJson arrayMeta depth visited v : Program ε Json).Obeys P Readable := by
  induction depth generalizing visited v with
  | zero => trivial
  | succ depth ih =>
    unfold toJson
    cases v with
    | bool b => exact ⟨.bool b, .bool b⟩
    | int i => exact ⟨.int i, .int _⟩
    | float x =>
      show Readable (if x.isFinite then .float x else .null)
      split
      · rename_i hx
        exact ⟨.float hx, .float x⟩
      · exact ⟨.null, .null⟩
    | str s =>
      dsimp only
      split
      · exact ⟨.str _, .str _⟩
      · trivial
    | table t =>
      refine Emits.bind (emits_isArray _ _) fun isArray => ?_
      split
      · refine Obeys.bind (obeys_elements (ih _) _ t (by simp) _ _) fun js hjs => ?_
        have hmem {P : Json → Prop} (hP : ∀ j, Readable j → P j) : ∀ j ∈ js.reverse, P j :=
          fun j hj => hP j (hjs.2 j (List.mem_reverse.mp hj))
        refine ⟨.arr ?_ (hmem fun j hj => hj.1), .arr (hmem fun j hj => hj.2)⟩
        simpa using hjs.1
      · refine Obeys.bind (obeys_members _ (ih _) _ t ⟨List.Pairwise.nil, by simp⟩ _ _) fun ms hms => ?_
        obtain ⟨hmany, hascending, hread⟩ := hms
        exact ⟨.obj (by simpa using hmany) hascending.nodup_keys fun m hm => (hread m hm).1,
          .obj hascending fun m hm => (hread m hm).2⟩
    | _ => exact ⟨.null, .null⟩

theorem obeys_read (arrayMeta : Nat) (v : Value) : (read arrayMeta v : Program ε Json).Obeys P Readable :=
  Emits.bind emits_tableCount fun _ => obeys_toJson _ _ _ _

end Obeys

/-! ## Arrays and objects -/

section IsArray

variable {arrayMeta t : Nat} {g : Heap}

theorem runs_isArray_true (hmeta : (g.table t).meta? = some arrayMeta) :
    ∃ g', (isArray arrayMeta t : Program ε Bool).Runs g true g' [] := by
  refine ⟨g.modifyTable t fun _ => (g.table t).border.2, (runs_border t).bind ?_⟩
  split
  · exact runs_done
  · refine (runs_metatable? t).bind ?_
    rw [((similar_border g t).table t).meta?, hmeta, decide_eq_true rfl]
    exact runs_done

theorem runs_isArray_false (arrayMeta : Nat) (hmeta : (g.table t).meta? = none)
    (hnone : ∀ i, (g.table t).getInt i = .nil) :
    ∃ g', (isArray arrayMeta t : Program ε Bool).Runs g false g' [] := by
  refine ⟨g.modifyTable t fun _ => (g.table t).border.2, (runs_border t).bind ?_⟩
  rw [Table.border_of_no_integers hnone, if_neg (by decide)]
  refine (runs_metatable? t).bind ?_
  rw [((similar_border g t).table t).meta?, hmeta, decide_eq_false nofun]
  exact runs_done

end IsArray

/-! ## Elements -/

/-- The values of a list after place `k`, one after the other up to the first nil, if no more than are read. -/
structure Lists (h : Heap) (t k : Nat) (vs : List Value) : Prop where
  few : k + vs.length ≤ maxElements
  value : ∀ i (hi : i < vs.length), (h.table t).get (.int (Int64.ofNat (k + i + 1))) = vs[i]
  present : ∀ v ∈ vs, v.isNil = false
  last : (h.table t).get (.int (Int64.ofNat (k + vs.length + 1))) = .nil

namespace Lists

variable {h g : Heap} {t k : Nat} {v : Value} {vs : List Value}

theorem tail (hvs : Lists h t k (v :: vs)) : Lists h t (k + 1) vs where
  few := by
    have hfew := hvs.few
    rw [List.length_cons] at hfew
    omega
  value i hi := by
    have hnext := hvs.value (i + 1) (by simpa using hi)
    rwa [← Nat.add_assoc, Nat.add_right_comm k] at hnext
  present w hw := hvs.present w (List.mem_cons_of_mem _ hw)
  last := by
    have hlast := hvs.last
    rwa [List.length_cons, ← Nat.add_assoc, Nat.add_right_comm k] at hlast

theorem runs_first {ε : Type} (hvs : Lists h t k (v :: vs)) (hg : h.Similar g) :
    ∃ g', (rawGet t (.int (Int64.ofNat (k + 1))) : Program ε Value).Runs g v g' [] ∧ h.Similar g' := by
  have hfirst := hvs.value 0 (Nat.succ_pos _)
  exact ⟨_, runs_rawGet rfl (((hg.table t).get _).trans hfirst), hg.trans (similar_rawGet g t _)⟩

theorem runs_last {ε : Type} (hvs : Lists h t k []) (hg : h.Similar g) :
    ∃ g', (rawGet t (.int (Int64.ofNat (k + 1))) : Program ε Value).Runs g .nil g' [] ∧ h.Similar g' :=
  ⟨_, runs_rawGet rfl (((hg.table t).get _).trans hvs.last), hg.trans (similar_rawGet g t _)⟩

end Lists

/-- A table that has only a dense part lists that. -/
theorem lists_dense {h : Heap} {t : Nat} (hother : (h.table t).other = {})
    (hmany : (h.table t).dense.size ≤ maxElements)
    (hpresent : ∀ v ∈ (h.table t).dense.toList, v.isNil = false) : Lists h t 0 (h.table t).dense.toList where
  few := by rwa [Nat.zero_add, Array.length_toList]
  value i hi := by
    have hbound := maxElements_lt
    rw [Array.length_toList] at hi
    rw [Nat.zero_add, Table.get_element (by omega) hi, Array.getD_eq_getD_getElem?, Array.getElem?_eq_getElem hi]
    rfl
  present := hpresent
  last := by
    have hbound := maxElements_lt
    rw [Nat.zero_add, Array.length_toList, Table.get_past (by omega) (Nat.le_refl _), Table.keyed, hother]
    rfl

/-- A value that is skipped, or is read as a piece of JSON wherever borders were last seen. -/
structure ReadsAs (read : Value → Program ε Json) (visited : List Nat) (h : Heap) (v : Value) (kept? : Option Json) :
    Prop where
  isNil : v.isNil = false
  unvisited : ∀ t, v = .table t → t ∉ visited
  isSkipped : isSkipped v = kept?.isNone
  runs : ∀ j ∈ kept?, ∀ g, h.Similar g → ∃ g', (read v).Runs g j g' []

section Reads

variable {read : Value → Program ε Json} {visited : List Nat} {t : Nat} {h g : Heap}

theorem runs_unvisited {v : Value} (hv : ∀ t, v = .table t → t ∉ visited) :
    (unvisited visited v : Program ε Unit).Runs h () h [] := by
  cases v with
  | table t =>
    have ht : visited.contains t = false := by simpa using hv t rfl
    rw [unvisited, ht]
    exact runs_done
  | _ => exact runs_done

/-- The elements of a list that are not skipped are read one after the other. -/
theorem runs_elements (hread : ∀ v, (read v).Looks) {vs : List Value} {kept : List (Option Json)}
    (hall : List.Forall₂ (ReadsAs read visited h) vs kept) {k n : Nat} (hvs : Lists h t k vs) (acc : List Json)
    (hn : vs.length ≤ n) (hg : h.Similar g) :
    ∃ g', (elements read visited t acc (Int64.ofNat (k + 1)) n).Runs g ((kept.filterMap id).reverse ++ acc) g' [] := by
  induction hall generalizing k n acc g with
  | nil =>
    cases n with
    | zero => exact ⟨g, runs_done⟩
    | succ n =>
      obtain ⟨g', hlast, -⟩ := hvs.runs_last (ε := ε) hg
      exact ⟨g', hlast.bind runs_done⟩
  | @cons v kept? vs kept hfirst _ ih =>
    rw [List.length_cons] at hn
    obtain ⟨n, rfl⟩ := Nat.exists_eq_add_of_le' (Nat.one_le_of_lt hn)
    obtain ⟨g₁, hget, hlooked⟩ := hvs.runs_first (ε := ε) hg
    have hrest (acc : List Json) {g : Heap} (hg : h.Similar g) :
        ∃ g', (elements read visited t acc (Int64.ofNat (k + 1) + 1) n).Runs g
          ((kept.filterMap id).reverse ++ acc) g' [] := by
      rw [ofNat_add_one]
      exact ih hvs.tail acc (by omega) hg
    cases kept? with
    | none =>
      obtain ⟨g', hrun⟩ := hrest acc hlooked
      refine ⟨g', hget.bind ?_⟩
      rw [hfirst.isNil, if_neg Bool.false_ne_true]
      refine (runs_unvisited hfirst.unvisited).bind ?_
      rw [hfirst.isSkipped, Option.isNone_none, if_pos rfl]
      exact hrun
    | some j =>
      obtain ⟨g₂, hrun₂⟩ := hfirst.runs j rfl _ hlooked
      obtain ⟨g', hrun⟩ := hrest (j :: acc) (hlooked.trans ((hread _).of_runs hrun₂).1)
      refine ⟨g', hget.bind ?_⟩
      have hkept : (List.filterMap id (some j :: kept)).reverse ++ acc = (kept.filterMap id).reverse ++ j :: acc := by
        simp
      rw [hfirst.isNil, if_neg Bool.false_ne_true, hkept]
      refine (runs_unvisited hfirst.unvisited).bind ?_
      rw [hfirst.isSkipped, Option.isNone_some, if_neg Bool.false_ne_true]
      exact hrun₂.bind hrun

/-! ## Members -/

/-- The members that have been read of some entries: what is kept under their names, in key order. -/
structure MembersRead (kept : String → Option Json) (entries : List (Value × Value)) (acc : List (String × Json)) :
    Prop where
  ascending : Json.Ascending acc
  lookup : ∀ q j, acc.lookup q = some j ↔ .ofString q ∈ entries.map Prod.fst ∧ kept q = some j

theorem membersRead_nil (kept : String → Option Json) : MembersRead kept [] [] := ⟨List.Pairwise.nil, by simp⟩

theorem ofString_inj {s s' : String} : Value.ofString s = .ofString s' ↔ s = s' :=
  ⟨fun h => Bytes.ofString_injective (Value.str.inj h), congrArg _⟩

theorem mem_keys_snoc {entries : List (Value × Value)} {name q : String} {v : Value} :
    .ofString q ∈ (entries ++ [(Value.ofString name, v)]).map Prod.fst ↔
      .ofString q ∈ entries.map Prod.fst ∨ q = name := by
  rw [List.map_append, List.mem_append, List.map_singleton, List.mem_singleton, ofString_inj]

namespace MembersRead

variable {kept : String → Option Json} {entries : List (Value × Value)} {acc : List (String × Json)} {name : String}

theorem skip (hacc : MembersRead kept entries acc) (hname : kept name = none) (v : Value) :
    MembersRead kept (entries ++ [(.ofString name, v)]) acc := by
  refine ⟨hacc.ascending, fun q j => ?_⟩
  rw [mem_keys_snoc, hacc.lookup]
  by_cases hq : q = name
  · simp [hq, hname]
  · simp [hq]

theorem insert (hacc : MembersRead kept entries acc) {j : Json} (hname : kept name = some j) (v : Value) :
    MembersRead kept (entries ++ [(.ofString name, v)]) (Json.insertMember name j acc) := by
  refine ⟨Json.ascending_insertMember _ _ hacc.ascending, fun q i => ?_⟩
  rw [mem_keys_snoc, Json.lookup_insertMember]
  by_cases hq : q = name
  · simp [hq, hname]
  · simp [hq, hacc.lookup]

theorem leftOut (hacc : MembersRead kept entries acc) {k : Value} (hk : ∀ name, k ≠ .ofString name) (v : Value) :
    MembersRead kept (entries ++ [(k, v)]) acc := by
  refine ⟨hacc.ascending, fun q j => ?_⟩
  have hother : Value.ofString q ≠ k := (hk q).symm
  rw [hacc.lookup, List.map_append, List.mem_append, List.map_singleton, List.mem_singleton, or_iff_left hother]

end MembersRead

/-- The next key is that of the first entry that is ahead. -/
theorem runs_next_of_ahead (hsound : (h.table t).Sound) (hsize : (h.table t).dense.size < 2 ^ 63)
    {ahead : List (Value × Value)} {key : Value} (hahead : (h.table t).Ahead key ahead) (hkey : key.normalKey = key)
    (hg : h.Similar g) :
    (op (.next t key) : Program ε Value).Runs g ((ahead.head?.map Prod.fst).getD .nil) g [] := by
  have hsimilar := hg.table t
  refine runs_next ?_
  rw [hkey]
  exact Table.next_of_ahead (hsimilar.sound hsound) (hsimilar.dense.symm ▸ hsize) (hsimilar.ahead hahead)

theorem runs_keyText (arrayMeta : Nat) (name : String) :
    (keyText arrayMeta (.ofString name) : Program ε String).Runs h name h [] := by
  rw [Value.ofString, keyText, Bytes.text?_ofString]
  exact runs_done

/-- An entry that can be read: a value under a name that is skipped or read, or an entry that is left out and is of
no table that is being read. -/
inductive EntryReads (read : Value → Program ε Json) (visited : List Nat) (h : Heap) (kept : String → Option Json) :
    Value × Value → Prop
  | named {name : String} {v : Value} (hv : ReadsAs read visited h v (kept name)) :
    EntryReads read visited h kept (.ofString name, v)
  | leftOut {k v : Value} (hname : ∀ name, k ≠ .ofString name) (hkey : ∀ s, k = .table s → s ∉ visited)
    (hvalue : ∀ s, v = .table s → s ∉ visited) (hskipped : isSkipped k = true ∨ isSkipped v = true) :
    EntryReads read visited h kept (k, v)

/-- The entries that are ahead are read one after the other. -/
theorem runs_members (arrayMeta : Nat) {kept : String → Option Json} {acc : List (String × Json)}
    (before : List (Value × Value)) {ahead : List (Value × Value)} {key : Value} {n : Nat}
    (hread : ∀ v, (read v).Looks) (hsound : (h.table t).Sound) (hsize : (h.table t).dense.size < 2 ^ 63)
    (hahead : (h.table t).Ahead key ahead) (hhas : ∀ e ∈ ahead, (h.table t).HasEntry e.1 e.2)
    (hkey : key.normalKey = key) (hentries : ∀ e ∈ ahead, EntryReads read visited h kept e)
    (hacc : MembersRead kept before acc) (hn : ahead.length ≤ n) (hg : h.Similar g) :
    ∃ ns g', (members arrayMeta read visited t acc key n).Runs g ns g' [] ∧ MembersRead kept (before ++ ahead) ns := by
  induction ahead generalizing before acc key n g with
  | nil =>
    rw [List.append_nil]
    cases n with
    | zero => exact ⟨acc, g, runs_done, hacc⟩
    | succ n => exact ⟨acc, g, (runs_next_of_ahead hsound hsize hahead hkey hg).bind runs_done, hacc⟩
  | cons e ahead ih =>
    obtain ⟨k, v⟩ := e
    rw [List.length_cons] at hn
    obtain ⟨n, rfl⟩ := Nat.exists_eq_add_of_le' (Nat.one_le_of_lt hn)
    have hentry : (h.table t).HasEntry k v := hhas _ List.mem_cons_self
    have hstep : (op (.next t key) : Program ε Value).Runs g k g [] := runs_next_of_ahead hsound hsize hahead hkey hg
    have hget := runs_rawGet (ε := ε) hentry.normal (((hg.table t).get k).trans hentry.get)
    have hlooked := hg.trans (similar_rawGet g t k)
    have hrest {acc : List (String × Json)} (hacc : MembersRead kept (before ++ [(k, v)]) acc) {g : Heap}
        (hg : h.Similar g) : ∃ ns g', (members arrayMeta read visited t acc k n).Runs g ns g' [] ∧
          MembersRead kept (before ++ (k, v) :: ahead) ns := by
      rw [← List.singleton_append, ← List.append_assoc]
      exact ih _ hahead.tail (fun e he => hhas e (List.mem_cons_of_mem _ he)) hentry.normal
        (fun e he => hentries e (List.mem_cons_of_mem _ he)) hacc (by omega) hg
    -- up to where an entry is left out or read
    have hbegin {ns : List (String × Json)} {g' : Heap} (hkeys : ∀ s, k = .table s → s ∉ visited)
        (hvalues : ∀ s, v = .table s → s ∉ visited)
        (hrun : (if isSkipped k || isSkipped v then members arrayMeta read visited t acc k n
          else do
            let name ← keyText arrayMeta k
            let j ← read v
            members arrayMeta read visited t (Json.insertMember name j acc) k n : Program ε _).Runs
              (g.modifyTable t (·.touch k)) ns g' []) :
        (members arrayMeta read visited t acc key (n + 1)).Runs g ns g' [] := by
      refine hstep.bind ?_
      rw [hentry.isKey, if_neg Bool.false_ne_true]
      exact hget.bind ((runs_unvisited hkeys).bind ((runs_unvisited hvalues).bind hrun))
    cases hentries _ List.mem_cons_self with
    | leftOut hname hkeys hvalues hskipped =>
      obtain ⟨ns, g', hrun, hns⟩ := hrest (hacc.leftOut hname v) hlooked
      refine ⟨ns, g', hbegin hkeys hvalues ?_, hns⟩
      rw [if_pos ((Bool.or_eq_true _ _).mpr hskipped)]
      exact hrun
    | @named name _ hfirst =>
      cases hname : kept name with
      | none =>
        obtain ⟨ns, g', hrun, hns⟩ := hrest (hacc.skip hname v) hlooked
        refine ⟨ns, g', hbegin nofun hfirst.unvisited ?_, hns⟩
        rw [hfirst.isSkipped, hname, Option.isNone_none, Bool.or_true, if_pos rfl]
        exact hrun
      | some j =>
        have hskip : isSkipped (.ofString name) = false := rfl
        obtain ⟨g₂, hrun₂⟩ := hfirst.runs j hname _ hlooked
        obtain ⟨ns, g', hrun, hns⟩ := hrest (hacc.insert hname v) (hlooked.trans ((hread _).of_runs hrun₂).1)
        refine ⟨ns, g', hbegin nofun hfirst.unvisited ?_, hns⟩
        rw [hfirst.isSkipped, hname, hskip, Option.isNone_some, Bool.or_false, if_neg Bool.false_ne_true]
        exact (runs_keyText arrayMeta name).bind (hrun₂.bind hrun)

end Reads

/-! ## Tables -/

section Tables

variable {arrayMeta depth : Nat} {visited : List Nat} {t : Nat} {h g : Heap}

/-- An array is read as its elements that are not skipped. -/
theorem runs_array {vs : List Value} {kept : List (Option Json)}
    (hisArray : ∃ g', (isArray arrayMeta t : Program ε Bool).Runs g true g' [])
    (hall : List.Forall₂ (ReadsAs (ε := ε) (toJson arrayMeta depth (t :: visited)) (t :: visited) h) vs kept)
    (hvs : Lists h t 0 vs) (hg : h.Similar g) :
    ∃ g', (toJson arrayMeta (depth + 1) visited (.table t) : Program ε Json).Runs g (.arr (kept.filterMap id)) g' [] := by
  obtain ⟨g₁, hrun₁⟩ := hisArray
  have hlooked := hg.trans ((looks_isArray _ _).of_runs hrun₁).1
  have hfew : vs.length ≤ maxElements := (Nat.le_add_left _ 0).trans hvs.few
  obtain ⟨g₂, hrun₂⟩ := runs_elements (looks_toJson _ _ _) hall hvs [] hfew hlooked
  refine ⟨g₂, hrun₁.bind ?_⟩
  rw [if_pos rfl]
  refine hrun₂.bind ?_
  rw [List.append_nil, List.reverse_reverse]
  exact runs_done

/-- A table that is no array is read as its members that are not skipped. -/
theorem runs_object {kept : String → Option Json}
    (hisArray : ∃ g', (isArray arrayMeta t : Program ε Bool).Runs g false g' []) (hsound : (h.table t).Sound)
    (hsize : (h.table t).dense.size < 2 ^ 63) (hmany : (h.table t).entries.length ≤ maxElements)
    (hentries : ∀ e ∈ (h.table t).entries,
      EntryReads (ε := ε) (toJson arrayMeta depth (t :: visited)) (t :: visited) h kept e) (hg : h.Similar g) :
    ∃ ms g', (toJson arrayMeta (depth + 1) visited (.table t) : Program ε Json).Runs g (.obj ms) g' [] ∧
      MembersRead kept (h.table t).entries ms := by
  obtain ⟨g₁, hrun₁⟩ := hisArray
  have hlooked := hg.trans ((looks_isArray _ _).of_runs hrun₁).1
  obtain ⟨ms, g₂, hrun₂, hms⟩ := runs_members arrayMeta [] (looks_toJson _ _ _) hsound hsize .start
    (fun e he => Table.hasEntry_of_mem hsound hsize he) rfl hentries (membersRead_nil _) hmany hlooked
  refine ⟨ms, g₂, hrun₁.bind ?_, hms⟩
  rw [if_neg Bool.false_ne_true]
  exact hrun₂.bind runs_done

/-- In particular one that has names only. -/
theorem runs_object_of_names {kept : String → Option Json} (hmeta : (h.table t).meta? = none)
    (hdense : (h.table t).dense = #[]) (hmany : (h.table t).other.size ≤ maxElements)
    (hreads : ∀ e ∈ (h.table t).other.toList, ∃ name, e.1 = .ofString name ∧
      ReadsAs (ε := ε) (toJson arrayMeta depth (t :: visited)) (t :: visited) h e.2 (kept name)) (hg : h.Similar g) :
    ∃ ms g', (toJson arrayMeta (depth + 1) visited (.table t) : Program ε Json).Runs g (.obj ms) g' [] ∧
      MembersRead kept (h.table t).other.toList ms := by
  have hstrings : ∀ e ∈ (h.table t).other.toList, ∃ s, e.1 = .str s := fun e he => by
    obtain ⟨name, hname, -⟩ := hreads e he
    exact ⟨_, hname⟩
  have hnone : ∀ i, (g.table t).getInt i = .nil :=
    Table.getInt_of_no_integers ((hg.table t).dense.trans hdense) ((hg.table t).other.symm ▸ hstrings)
  have hentries := Table.entries_eq_toList hdense fun e he => by
    obtain ⟨_, -, hread⟩ := hreads e he
    exact hread.isNil
  rw [← hentries]
  refine runs_object (runs_isArray_false arrayMeta ((hg.table t).meta?.trans hmeta) hnone)
    (Table.sound_of_strings hstrings) ?_ (hentries.symm ▸ Std.TreeMap.length_toList.trans_le hmany) ?_ hg
  · rw [hdense]
    decide
  · rintro ⟨k, v⟩ he
    obtain ⟨name, rfl, hread⟩ := hreads _ (hentries ▸ he)
    exact .named hread

end Tables

/-! ## Values that show JSON -/

/-- The tables that are being read are all different, and there are levels left for the others. -/
structure Levels (h : Heap) (visited : List Nat) (depth : Nat) : Prop where
  distinct : visited.Nodup
  within : ∀ u ∈ visited, u < h.tables.size
  total : depth + visited.length = h.tables.size + 1

namespace Levels

variable {h : Heap} {visited : List Nat} {depth t : Nat}

theorem start (h : Heap) : Levels h [] (h.tables.size + 1) := ⟨List.nodup_nil, by simp, rfl⟩

theorem exists_level (hl : Levels h visited depth) : ∃ d, depth = d + 1 := by
  have hsub : visited ⊆ List.range h.tables.size := fun u hu => List.mem_range.mpr (hl.within u hu)
  have hroom := hl.distinct.length_le_of_subset hsub
  rw [List.length_range] at hroom
  have htotal := hl.total
  exact ⟨depth - 1, by omega⟩

theorem deeper (hl : Levels h visited (depth + 1)) (ht : t < h.tables.size) (hnew : t ∉ visited) :
    Levels h (t :: visited) depth := by
  refine ⟨List.nodup_cons.mpr ⟨hnew, hl.distinct⟩, fun u hu => ?_, ?_⟩
  · rcases List.mem_cons.mp hu with rfl | hu
    · exact ht
    · exact hl.within u hu
  · have htotal := hl.total
    rw [List.length_cons]
    omega

end Levels

namespace Shows

variable {arrayMeta : Nat} {h : Heap} {allowed : Nat → Prop} {v : Value} {j : Json}

theorem isSkipped_eq (hs : Shows arrayMeta h allowed v j) : isSkipped v = j.isNull := by
  cases hs <;> rfl

theorem allowed_of_table {t : Nat} (hs : Shows arrayMeta h allowed v j) (hv : v = .table t) : allowed t := by
  cases hs with
  | arr ht => exact Value.table.inj hv ▸ ht
  | obj ht => exact Value.table.inj hv ▸ ht
  | _ => cases hv

/-- A value that shows JSON is skipped or read as such where its own tables are not being read already. -/
theorem readsAs {read : Value → Program ε Json} {visited : List Nat} (hs : Shows arrayMeta h allowed v j)
    (hallowed : ∀ u, allowed u → u ∉ visited)
    (hruns : ∀ g, h.Similar g → ∃ g', (read v).Runs g j.withoutNulls g' []) : ReadsAs read visited h v j.kept? where
  isNil := hs.isNil_eq_false
  unvisited _ ht := hallowed _ (hs.allowed_of_table ht)
  isSkipped := by
    rw [hs.isSkipped_eq, Json.kept?]
    cases j.isNull <;> rfl
  runs i hi := by
    obtain rfl := Json.eq_withoutNulls_of_kept hi
    exact hruns

/-- What the names stand for is all that a table shows of an object. -/
theorem of_lookup {ms ns : List (String × Json)} (hs : Shows arrayMeta h allowed v (.obj ms))
    (heq : ∀ name, ns.lookup name = ms.lookup name) : Shows arrayMeta h allowed v (.obj ns) := by
  cases hs with
  | obj ht hmeta hdense hmany hkeys hnames hmembers =>
    refine .obj ht hmeta hdense hmany hkeys (fun name => ?_) fun name v j hv hj => ?_
    · rw [heq, hnames]
    · exact hmembers name v j hv (heq name ▸ hj)

end Shows

/-- The names of an object are the keys of a table that shows it. -/
theorem mem_keys_iff {m : KeyMap} {ms : List (String × Json)}
    (hnames : ∀ name, (m.get? (.ofString name)).isSome = (ms.lookup name).isSome) (name : String) :
    .ofString name ∈ m.toList.map Prod.fst ↔ (ms.lookup name).isSome := by
  rw [← hnames, List.mem_map]
  constructor
  · rintro ⟨⟨k, v⟩, hmem, rfl⟩
    exact Option.isSome_iff_exists.mpr ⟨v, KeyMap.get?_of_mem_toList hmem⟩
  · intro hsome
    obtain ⟨v, hv⟩ := Option.isSome_iff_exists.mp hsome
    exact ⟨_, KeyMap.mem_toList_of_get? Value.eq_of_keyOrder_str hv, rfl⟩

/-- What has been read of all keys of a table that shows an object is that without the nulls inside it. -/
theorem MembersRead.eq_withoutNulls {m : KeyMap} {ms ns : List (String × Json)}
    (hns : MembersRead (fun name => (ms.lookup name).bind Json.kept?) m.toList ns) (hascending : Json.Ascending ms)
    (hnames : ∀ name, (m.get? (.ofString name)).isSome = (ms.lookup name).isSome) :
    ns = Json.membersWithoutNulls ms := by
  refine Json.eq_of_lookup hns.ascending hascending.withoutNulls fun name => Option.ext fun j => ?_
  rw [hns.lookup, mem_keys_iff hnames, Json.lookup_membersWithoutNulls hascending.nodup_keys]
  refine ⟨fun hand => hand.2, fun hj => ⟨?_, hj⟩⟩
  obtain ⟨i, hi, -⟩ := Option.bind_eq_some_iff.mp hj
  exact hi ▸ rfl

/-- What holds of each place of an array and of the element it shows holds of them one by one. -/
theorem forall₂_places {R : Value → Json → Prop} {dense : Array Value} {js : List Json} (hsize : dense.size = js.length)
    (hall : ∀ i (hi : i < js.length), R (dense.getD i .nil) js[i]) : List.Forall₂ R dense.toList js := by
  refine List.forall₂_iff_get.mpr ⟨by simpa using hsize, fun i hi hi' => ?_⟩
  have hplace := hall i hi'
  rwa [Array.getD_eq_getD_getElem?, Array.getElem?_eq_getElem (by simpa using hi)] at hplace

/-- The tables inside one that is read are not being read either. -/
theorem unvisited_inside {allowed : Nat → Prop} {h : Heap} {visited : List Nat} (t : Nat)
    (hallowed : ∀ u, allowed u → u < h.tables.size ∧ u ∉ visited) :
    ∀ u, allowed u ∧ u ≠ t → u < h.tables.size ∧ u ∉ t :: visited := by
  rintro u ⟨hu, hne⟩
  obtain ⟨hin, hnew⟩ := hallowed u hu
  exact ⟨hin, List.not_mem_cons_of_ne_of_not_mem hne hnew⟩

/-- A value that shows a piece of JSON is read as that without the nulls inside it. -/
theorem runs_toJson {arrayMeta : Nat} {h : Heap} {allowed : Nat → Prop} {v : Value} {j : Json}
    (hs : Shows arrayMeta h allowed v j) (hj : j.Ordered) {visited : List Nat} {depth : Nat}
    (hallowed : ∀ u, allowed u → u < h.tables.size ∧ u ∉ visited) (hlevels : Levels h visited depth) {g : Heap}
    (hg : h.Similar g) : ∃ g', (toJson arrayMeta depth visited v : Program ε Json).Runs g j.withoutNulls g' [] := by
  induction hs generalizing visited depth g with
  | null =>
    obtain ⟨depth, rfl⟩ := hlevels.exists_level
    exact ⟨g, runs_done⟩
  | bool b =>
    obtain ⟨depth, rfl⟩ := hlevels.exists_level
    exact ⟨g, runs_done⟩
  | int i =>
    obtain ⟨depth, rfl⟩ := hlevels.exists_level
    exact ⟨g, runs_done⟩
  | float hx =>
    obtain ⟨depth, rfl⟩ := hlevels.exists_level
    refine ⟨g, ?_⟩
    rw [toJson, hx, if_pos rfl]
    exact runs_done
  | str s =>
    obtain ⟨depth, rfl⟩ := hlevels.exists_level
    refine ⟨g, ?_⟩
    rw [Value.ofString, toJson, Bytes.text?_ofString]
    exact runs_done
  | @arr allowed t js ht hmeta hother hsize hmany helements ih =>
    obtain ⟨depth, rfl⟩ := hlevels.exists_level
    obtain ⟨hin, hnew⟩ := hallowed t ht
    have hinside := unvisited_inside t hallowed
    have hplaces : List.Forall₂ (fun v j => Shows arrayMeta h (fun u => allowed u ∧ u ≠ t) v j ∧ ∀ g, h.Similar g →
        ∃ g', (toJson arrayMeta depth (t :: visited) v : Program ε Json).Runs g j.withoutNulls g' [])
        (h.table t).dense.toList js := forall₂_places hsize fun i hi =>
      ⟨helements i hi, fun _ =>
        ih i hi (Json.ordered_arr_iff.mp hj _ (List.getElem_mem hi)) hinside (hlevels.deeper hin hnew)⟩
    have hall : List.Forall₂ (ReadsAs (ε := ε) (toJson arrayMeta depth (t :: visited)) (t :: visited) h)
        (h.table t).dense.toList (js.map Json.kept?) := List.forall₂_map_right_iff.mpr <|
      hplaces.imp fun _ _ hplace => hplace.1.readsAs (fun u hu => (hinside u hu).2) hplace.2
    have hpresent : ∀ v ∈ (h.table t).dense.toList, v.isNil = false := ((List.forall₂_and_left _ _).mp <|
      hplaces.imp fun _ _ hplace => ⟨hplace.1.isNil_eq_false, hplace⟩).1
    have hlists : Lists h t 0 (h.table t).dense.toList := lists_dense hother (hsize ▸ hmany) hpresent
    have hruns := runs_array (runs_isArray_true ((hg.table t).meta?.trans hmeta)) hall hlists hg
    rwa [List.filterMap_map, Function.id_comp, ← Json.elementsWithoutNulls_eq, ← Json.withoutNulls] at hruns
  | @obj allowed t ms ht hmeta hdense hmany hkeys hnames hmembers ih =>
    obtain ⟨depth, rfl⟩ := hlevels.exists_level
    obtain ⟨hin, hnew⟩ := hallowed t ht
    obtain ⟨hascending, hordered⟩ := Json.ordered_obj_iff.mp hj
    have hinside := unvisited_inside t hallowed
    have hreads : ∀ e ∈ (h.table t).other.toList, ∃ name, e.1 = .ofString name ∧
        ReadsAs (ε := ε) (toJson arrayMeta depth (t :: visited)) (t :: visited) h e.2
          ((ms.lookup name).bind Json.kept?) := by
      intro e he
      obtain ⟨name, hname⟩ := hkeys e he
      have hget : (h.table t).other.get? (.ofString name) = some e.2 := hname ▸ KeyMap.get?_of_mem_toList he
      have hsome := hnames name
      rw [hget] at hsome
      obtain ⟨j, hj⟩ := Option.isSome_iff_exists.mp hsome.symm
      refine ⟨name, hname, ?_⟩
      rw [hj, Option.bind_some]
      refine (hmembers name e.2 j hget hj).readsAs (fun u hu => (hinside u hu).2) fun g hg => ?_
      exact ih name e.2 j hget hj (hordered (name, j) (Json.mem_of_lookup hj)) hinside (hlevels.deeper hin hnew) hg
    obtain ⟨ns, g', hrun, hns⟩ := runs_object_of_names hmeta hdense hmany hreads hg
    rw [Json.withoutNulls, ← hns.eq_withoutNulls hascending hnames]
    exact ⟨g', hrun⟩

/-- Values that show JSON are read on their own, wherever borders were last seen. -/
theorem runs_read {arrayMeta : Nat} {h : Heap} {allowed : Nat → Prop} {v : Value} {j : Json}
    (hs : Shows arrayMeta h allowed v j) (hj : j.Ordered) (hallowed : ∀ u, allowed u → u < h.tables.size) {g : Heap}
    (hg : h.Similar g) : ∃ g', (read arrayMeta v : Program ε Json).Runs g j.withoutNulls g' [] := by
  obtain ⟨g', hrun⟩ := runs_toJson (ε := ε) hs hj (fun u hu => ⟨hallowed u hu, List.not_mem_nil⟩) (Levels.start h) hg
  refine ⟨g', runs_tableCount.bind ?_⟩
  rw [hg.size]
  exact hrun

/-- A value that shows an object whose members are in any order is read as one with the members that are left. -/
theorem runs_read_members {arrayMeta : Nat} {h : Heap} {allowed : Nat → Prop} {v : Value}
    {ms : List (String × Json)} (hs : Shows arrayMeta h allowed v (.obj ms)) (hms : ∀ m ∈ ms, m.2.Ordered)
    (hnames : (ms.map Prod.fst).Nodup) (hallowed : ∀ u, allowed u → u < h.tables.size) {g : Heap} (hg : h.Similar g) :
    ∃ raw g', (read arrayMeta v : Program ε Json).Runs g raw g' [] ∧
      ∀ q, raw.get? q = (ms.lookup q).bind Json.kept? := by
  have hordered := Json.ordered_ofMembers hms
  have hlookup := Json.lookup_ofMembers hnames
  obtain ⟨ns, hns⟩ : ∃ ns, Json.ofMembers ms = .obj ns := ⟨_, rfl⟩
  rw [hns] at hordered hlookup
  obtain ⟨g', hrun⟩ := runs_read (ε := ε) (hs.of_lookup hlookup) hordered hallowed hg
  refine ⟨_, g', hrun, fun q => ?_⟩
  rw [← hlookup q]
  exact Json.lookup_membersWithoutNulls (Json.ordered_obj_iff.mp hordered).1.nodup_keys q

end StrategyBench.Sandbox.Exchange

/-
StrategyBench.Proofs.Sandbox.Showing — JSON as values of a script.

A value shows a piece of JSON if it is that scalar, or a table made for that array or object whose
elements or members show those of it, each through tables of its own (`Shows`). What is read of a
script can be shown again (`Plain`), and making it a value makes new tables that show it and leaves
all others as they are (`shows_ofJson`).
-/

import StrategyBench.Proofs.Json.Nulls
import StrategyBench.Proofs.Lua.TableSteps
import StrategyBench.Sandbox.Exchange

namespace StrategyBench.Sandbox.Exchange

open Lua Program

variable {ε : Type}

/-! ## Values that are read -/

/-- JSON as it can be read of a script: integers of 64 bits, finite floats, no more elements or members
than are read, and members of different names. -/
inductive Plain : Json → Prop
  | null : Plain .null
  | bool (b : Bool) : Plain (.bool b)
  | int (i : Int64) : Plain (.int i.toInt)
  | float {x : Double} (h : x.isFinite = true) : Plain (.float x)
  | str (s : String) : Plain (.str s)
  | arr {js : List Json} (hmany : js.length ≤ maxElements) (h : ∀ j ∈ js, Plain j) : Plain (.arr js)
  | obj {ms : List (String × Json)} (hmany : ms.length ≤ maxElements) (hnames : (ms.map Prod.fst).Nodup)
      (h : ∀ m ∈ ms, Plain m.2) : Plain (.obj ms)

theorem maxElements_lt : maxElements < 2 ^ 62 := by decide

/-- As many members as are read fit into a table that is made for them. -/
theorem le_roomFor_of_few {n : Nat} (hfew : n ≤ maxElements) : n ≤ Table.roomFor n := by
  have hbound := maxElements_lt
  exact Table.le_roomFor (by omega)

theorem ofInt_toInt (i : Int64) : ofInt i.toInt = .int i := by
  have hlow := Int64.le_toInt i
  have hhigh := Int64.toInt_lt i
  have hmin : Numeral.minInt = -2 ^ 63 := rfl
  have hmax : Numeral.maxInt = 2 ^ 63 - 1 := rfl
  have hrange : Numeral.inRange i.toInt = true := by
    rw [Numeral.inRange, hmin, hmax, Bool.and_eq_true, decide_eq_true_iff, decide_eq_true_iff]
    omega
  rw [ofInt, hrange, if_pos rfl, Int64.ofInt_toInt]

/-! ## Values that show JSON -/

/-- A value that shows a piece of JSON through tables that are allowed, none of them inside itself. -/
inductive Shows (arrayMeta : Nat) (h : Heap) : (Nat → Prop) → Value → Json → Prop
  | null {allowed : Nat → Prop} : Shows arrayMeta h allowed .null .null
  | bool {allowed : Nat → Prop} (b : Bool) : Shows arrayMeta h allowed (.bool b) (.bool b)
  | int {allowed : Nat → Prop} (i : Int64) : Shows arrayMeta h allowed (.int i) (.int i.toInt)
  | float {allowed : Nat → Prop} {x : Double} (hx : x.isFinite = true) :
      Shows arrayMeta h allowed (.float x) (.float x)
  | str {allowed : Nat → Prop} (s : String) : Shows arrayMeta h allowed (.ofString s) (.str s)
  | arr {allowed : Nat → Prop} {t : Nat} {js : List Json} (ht : allowed t)
      (hmeta : (h.table t).meta? = some arrayMeta) (hother : (h.table t).other = {})
      (hsize : (h.table t).dense.size = js.length) (hmany : js.length ≤ maxElements)
      (helements : ∀ i (hi : i < js.length),
        Shows arrayMeta h (fun u => allowed u ∧ u ≠ t) ((h.table t).dense.getD i .nil) js[i]) :
      Shows arrayMeta h allowed (.table t) (.arr js)
  | obj {allowed : Nat → Prop} {t : Nat} {ms : List (String × Json)} (ht : allowed t)
      (hmeta : (h.table t).meta? = none) (hdense : (h.table t).dense = #[])
      (hmany : (h.table t).other.size ≤ maxElements)
      (hkeys : ∀ e ∈ (h.table t).other.toList, ∃ name, e.1 = .ofString name)
      (hnames : ∀ name, ((h.table t).other.get? (.ofString name)).isSome = (ms.lookup name).isSome)
      (hmembers : ∀ name v j, (h.table t).other.get? (.ofString name) = some v → ms.lookup name = some j →
        Shows arrayMeta h (fun u => allowed u ∧ u ≠ t) v j) :
      Shows arrayMeta h allowed (.table t) (.obj ms)

namespace Shows

variable {arrayMeta : Nat} {h g : Heap} {allowed allowed' : Nat → Prop} {v : Value} {j : Json}

/-- What a value shows it shows in every heap that has its tables. -/
theorem transport (hs : Shows arrayMeta h allowed v j)
    (hkeep : ∀ u, allowed u → allowed' u ∧ (h.table u).Similar (g.table u)) : Shows arrayMeta g allowed' v j := by
  induction hs generalizing allowed' with
  | null => exact .null
  | bool b => exact .bool b
  | int i => exact .int i
  | float hx => exact .float hx
  | str s => exact .str s
  | @arr allowed t js ht hmeta hother hsize hmany _ ih =>
    obtain ⟨ht', hsimilar⟩ := hkeep t ht
    refine .arr ht' (hsimilar.meta?.trans hmeta) (hsimilar.other.trans hother) ?_ hmany fun i hi => ?_
    · rw [hsimilar.dense, hsize]
    · rw [hsimilar.dense]
      exact ih i hi fun u hu => ⟨⟨(hkeep u hu.1).1, hu.2⟩, (hkeep u hu.1).2⟩
  | @obj allowed t ms ht hmeta hdense hmany hkeys hnames _ ih =>
    obtain ⟨ht', hsimilar⟩ := hkeep t ht
    have hother := hsimilar.other
    refine .obj ht' (hsimilar.meta?.trans hmeta) (hsimilar.dense.trans hdense) ?_ ?_ ?_ fun name v j hv hj => ?_
    · rw [hother]; exact hmany
    · rw [hother]; exact hkeys
    · rw [hother]; exact hnames
    · rw [hother] at hv
      exact ih name v j hv hj fun u hu => ⟨⟨(hkeep u hu.1).1, hu.2⟩, (hkeep u hu.1).2⟩

theorem isNil_eq_false (hs : Shows arrayMeta h allowed v j) : v.isNil = false := by
  cases hs <;> rfl

end Shows

/-! ## Later heaps -/

namespace Shows

variable {arrayMeta t : Nat} {h h₁ h₂ : Heap} {v : Value} {j : Json}

/-- What new tables show they still show after other tables, or one that was there before, have changed. -/
theorem later (hs : Shows arrayMeta h₁ (h.New h₁) v j) (ht : h.InUse t) (hext : Heap.Extends (· = t) h₁ h₂) :
    Shows arrayMeta h₂ (h.New h₂) v j := by
  refine hs.transport fun u hu => ⟨⟨hext.inUse u hu.1, hu.2⟩, ?_⟩
  rw [hext.table u hu.1 fun hut => hu.2 (hut ▸ ht)]
  exact Table.Similar.refl _

/-- What is new since later is new since earlier. -/
theorem earlier (hs : Shows arrayMeta h₂ (h₁.New h₂) v j) (hin : ∀ u, h.InUse u → h₁.InUse u) :
    Shows arrayMeta h₂ (h.New h₂) v j :=
  hs.transport fun u hu => ⟨⟨hu.1, fun hh => hu.2 (hin u hh)⟩, Table.Similar.refl _⟩

/-- What is shown through tables made after a new one is shown inside that one, which may have changed since. -/
theorem inside {table : Table} (hs : Shows arrayMeta h₁ (h.New h₁) v j) {h₀ : Heap} (hadds : h₀.Adds table t h)
    (hext : Heap.Extends (· = t) h₁ h₂) : Shows arrayMeta h₂ (fun u => h₀.New h₂ u ∧ u ≠ t) v j :=
  (hs.later hadds.inUse hext).transport fun u hu =>
    ⟨⟨⟨hu.1, fun hh => hu.2 (hadds.keeps u hh).1⟩, fun hut => hu.2 (hut ▸ hadds.inUse)⟩, Table.Similar.refl _⟩

end Shows

theorem get_ofString (t : Table) (name : String) :
    t.get (.ofString name) = (t.other.get? (.ofString name)).getD .nil := rfl

/-- A name stands for what was put under it last. -/
theorem get?_insert_ofString (m : KeyMap) (k name : String) (v : Value) :
    (m.insert (.ofString k) v).get? (.ofString name) = if name = k then some v else m.get? (.ofString name) := by
  split
  · rename_i hname
    rw [hname]
    exact m.get?_insert_self _ v
  · rename_i hname
    exact m.get?_insert_of_ne (fun hbytes => hname (Bytes.ofString_injective hbytes)) v

/-! ## Making values -/

/-- The elements of an array from place `k` on have been filled in. -/
structure ElementsFilled (arrayMeta t k : Nat) (js : List Json) (h h' : Heap) : Prop where
  ext : Heap.Extends (· = t) h h'
  table : ∃ dense, h'.table t = { h.table t with dense := dense } ∧ dense.size = (h.table t).dense.size ∧
    (∀ i < k, dense.getD i .nil = (h.table t).dense.getD i .nil) ∧
    ∀ i (hi : i < js.length), Shows arrayMeta h' (h.New h') (dense.getD (k + i) .nil) js[i]

/-- Members of an object have been filled in. -/
structure MembersFilled (arrayMeta t : Nat) (ms : List (String × Json)) (h h' : Heap) : Prop where
  ext : Heap.Extends (· = t) h h'
  table : ∃ other, h'.table t = { h.table t with other := other } ∧
    other.size = (h.table t).other.size + ms.length ∧
    (∀ e ∈ other.toList, e ∈ (h.table t).other.toList ∨ ∃ name, e.1 = .ofString name) ∧
    (∀ name, name ∉ ms.map Prod.fst → other.get? (.ofString name) = (h.table t).other.get? (.ofString name)) ∧
    ∀ m ∈ ms, ∃ v, other.get? (.ofString m.1) = some v ∧ Shows arrayMeta h' (h.New h') v m.2

theorem elementsFilled_nil (arrayMeta t k : Nat) {h : Heap} (ho : h.Orderly) : ElementsFilled arrayMeta t k [] h h where
  ext := .refl ho
  table := ⟨_, rfl, rfl, fun _ _ => rfl, fun _ hi => absurd hi (Nat.not_lt_zero _)⟩

/-- An element is made and put in its place, then the others are. -/
theorem elementsFilled_cons {arrayMeta t k : Nat} {j : Json} {js : List Json} {h h₁ h₂ h' : Heap} {v : Value}
    (ht : h.InUse t) (hk : k < (h.table t).dense.size) (hext : Heap.Extends (fun _ => False) h h₁)
    (hshows : Shows arrayMeta h₁ (h.New h₁) v j) (hext₂ : Heap.Extends (· = t) h₁ h₂)
    (htable₂ : h₂.table t = { h.table t with dense := (h.table t).dense.setIfInBounds k v })
    (hrest : ElementsFilled arrayMeta t (k + 1) js h₂ h') : ElementsFilled arrayMeta t k (j :: js) h h' := by
  obtain ⟨dense, htable, hsize, hbefore, helements⟩ := hrest.table
  rw [htable₂] at htable hsize hbefore
  refine ⟨(hext.mono fun _ => False.elim).trans (hext₂.trans hrest.ext), dense, htable, ?_, fun i hi => ?_, ?_⟩
  · rw [hsize, Array.size_setIfInBounds]
  · rw [hbefore i (by omega), Array.getD_eq_getD_getElem?, Array.getD_eq_getD_getElem?,
      Array.getElem?_setIfInBounds_ne (by omega)]
  · intro i hi
    cases i with
    | zero =>
      have hplace : dense.getD k .nil = v := by
        rw [hbefore k (by omega), Array.getD_eq_getD_getElem?, Array.getElem?_setIfInBounds_self_of_lt hk]
        rfl
      rw [Nat.add_zero, hplace]
      exact hshows.later ht (hext₂.trans hrest.ext)
    | succ i =>
      have hnext := helements i (by simpa using hi)
      rw [Nat.add_right_comm] at hnext
      exact hnext.earlier fun u hu => hext₂.inUse u (hext.inUse u hu)

/-- A new table whose places have been filled in shows the array, once it is marked as one. -/
theorem ElementsFilled.shows {arrayMeta t : Nat} {js : List Json} {h h₁ h₂ h₃ : Heap}
    (hfilled : ElementsFilled arrayMeta t 0 js h₁ h₂)
    (hadds : h.Adds { dense := Array.replicate js.length .nil, limit := js.length, capacity := Table.roomFor 0 } t h₁)
    (hmany : js.length ≤ maxElements) (hext : Heap.Extends (· = t) h₂ h₃)
    (htable : h₃.table t = { h₂.table t with meta? := some arrayMeta }) :
    Shows arrayMeta h₃ (h.New h₃) (.table t) (.arr js) := by
  obtain ⟨dense, htable₂, hsize, -, helements⟩ := hfilled.table
  rw [hadds.table] at htable₂ hsize
  rw [htable₂] at htable
  refine .arr ⟨hext.inUse t (hfilled.ext.inUse t hadds.inUse), hadds.new⟩ ?_ ?_ ?_ hmany fun i hi => ?_
  · rw [htable]
  · rw [htable]
  · rw [htable, hsize, Array.size_replicate]
  · rw [htable]
    have hshows := helements i hi
    rw [Nat.zero_add] at hshows
    exact hshows.inside hadds hext

theorem membersFilled_nil (arrayMeta t : Nat) {h : Heap} (ho : h.Orderly) : MembersFilled arrayMeta t [] h h where
  ext := .refl ho
  table := ⟨_, rfl, rfl, fun _ he => .inl he, fun _ _ => rfl, by simp⟩

/-- A member is made and put under its name, then the others are. -/
theorem membersFilled_cons {arrayMeta t : Nat} {k : String} {j : Json} {ms : List (String × Json)}
    {h h₁ h₂ h' : Heap} {v : Value} (ht : h.InUse t) (hk : (h.table t).other.contains (.ofString k) = false)
    (hname : k ∉ ms.map Prod.fst) (hext : Heap.Extends (fun _ => False) h h₁)
    (hshows : Shows arrayMeta h₁ (h.New h₁) v j) (hext₂ : Heap.Extends (· = t) h₁ h₂)
    (htable₂ : h₂.table t = { h.table t with other := (h.table t).other.insert (.ofString k) v })
    (hrest : MembersFilled arrayMeta t ms h₂ h') : MembersFilled arrayMeta t ((k, j) :: ms) h h' := by
  obtain ⟨other, htable, hsize, hkeys, hbefore, hmembers⟩ := hrest.table
  rw [htable₂] at htable hsize hkeys hbefore
  refine ⟨(hext.mono fun _ => False.elim).trans (hext₂.trans hrest.ext), other, htable, ?_, fun e he => ?_, ?_, ?_⟩
  · rw [hsize, Std.TreeMap.size_insert, hk, if_neg Bool.false_ne_true, List.length_cons]
    omega
  · rcases hkeys e he with he | hname
    · rcases KeyMap.mem_toList_insert he with rfl | he
      · exact .inr ⟨k, rfl⟩
      · exact .inl he
    · exact .inr hname
  · intro name hnot
    rw [List.map_cons, List.mem_cons, not_or] at hnot
    rw [hbefore name hnot.2, get?_insert_ofString, if_neg hnot.1]
  · intro m hm
    rcases List.mem_cons.mp hm with rfl | hm
    · refine ⟨v, ?_, hshows.later ht (hext₂.trans hrest.ext)⟩
      rw [hbefore k hname, get?_insert_ofString, if_pos rfl]
    · obtain ⟨w, hw, hnext⟩ := hmembers m hm
      exact ⟨w, hw, hnext.earlier fun u hu => hext₂.inUse u (hext.inUse u hu)⟩

/-- A new table that has been given all members of an object shows it. -/
theorem MembersFilled.shows {arrayMeta t : Nat} {ms : List (String × Json)} {h h₁ h₂ : Heap}
    (hfilled : MembersFilled arrayMeta t ms h₁ h₂)
    (hadds : h.Adds { dense := #[], limit := 0, capacity := Table.roomFor ms.length } t h₁)
    (hmany : ms.length ≤ maxElements) : Shows arrayMeta h₂ (h.New h₂) (.table t) (.obj ms) := by
  obtain ⟨other, htable₂, hsize, hkeys, hothers, hmembers⟩ := hfilled.table
  rw [hadds.table] at htable₂ hsize hkeys hothers
  have hmember {name : String} {j : Json} (hj : ms.lookup name = some j) :
      ∃ v, other.get? (.ofString name) = some v ∧ Shows arrayMeta h₂ (h₁.New h₂) v j :=
    hmembers (name, j) (Json.mem_of_lookup hj)
  refine .obj ⟨hfilled.ext.inUse t hadds.inUse, hadds.new⟩ ?_ ?_ ?_ (fun e he => ?_) (fun name => ?_)
    fun name v j hv hj => ?_
  · rw [htable₂]
  · rw [htable₂]
  · rw [htable₂]
    dsimp only
    rw [hsize]
    simpa using hmany
  · rw [htable₂] at he
    exact (hkeys e he).resolve_left fun hnone => nomatch hnone
  · rw [htable₂]
    cases hj : ms.lookup name with
    | some j =>
      obtain ⟨v, hv, -⟩ := hmember hj
      rw [hv]
      rfl
    | none =>
      have hnone : other.get? (.ofString name) = none := hothers name (Json.lookup_eq_none_iff.mp hj)
      rw [hnone]
      rfl
  · rw [htable₂] at hv
    obtain ⟨w, hw, hshows⟩ := hmember hj
    obtain rfl := Option.some.inj (hv.symm.trans hw)
    exact hshows.inside hadds (.refl hfilled.ext.orderly)

mutual
/-- JSON that can be read is made a value that shows it through new tables. -/
theorem shows_ofJson (arrayMeta : Nat) {j : Json} (hj : Plain j) {h : Heap} (ho : h.Orderly) :
    ∃ v h', (ofJson arrayMeta j : Program ε Value).Runs h v h' [] ∧ Heap.Extends (fun _ => False) h h' ∧
      Shows arrayMeta h' (h.New h') v j := by
  cases hj with
  | null => exact ⟨_, h, rfl, .refl ho, .null⟩
  | bool b => exact ⟨_, h, rfl, .refl ho, .bool b⟩
  | int i =>
    refine ⟨.int i, h, ?_, .refl ho, .int i⟩
    rw [ofJson, ofInt_toInt]
    rfl
  | float hx => exact ⟨_, h, rfl, .refl ho, .float hx⟩
  | str s =>
    exact ⟨.ofString s, h.reserve (s.utf8ByteSize + 25), rfl,
      ⟨⟨ho.distinct, ho.within⟩, fun _ hu => hu, fun _ _ _ => rfl⟩, .str s⟩
  | arr hmany hjs =>
    rename_i js
    obtain ⟨t, h₁, hrun₁, hadds⟩ := runs_newTable (ε := ε) ho js.length 0
    obtain ⟨h₂, hrun₂, hfilled⟩ := elements_fillElements arrayMeta t 0 hjs hadds.orderly hadds.inUse
      (by rw [hadds.table]; simp) (by rw [hadds.table]; simp) (by simpa using hmany)
    have hext := (hadds.extends _).trans hfilled.ext
    have hext₃ : Heap.Extends (· = t) h₂ (h₂.modifyTable t ({ · with meta? := some arrayMeta })) :=
      .of_modify hext.orderly rfl rfl
    have htable₃ : (h₂.modifyTable t ({ · with meta? := some arrayMeta })).table t =
        { h₂.table t with meta? := some arrayMeta } := by
      rw [Heap.table_modifyTable, if_pos ⟨rfl, (hfilled.ext.inUse t hadds.inUse).1⟩]
    exact ⟨.table t, _, hrun₁.bind (hrun₂.bind ((runs_setMetatable t _).bind runs_done)),
      (hext.trans hext₃).new hadds, hfilled.shows hadds hmany hext₃ htable₃⟩
  | obj hmany hnames hms =>
    rename_i ms
    obtain ⟨t, h₁, hrun₁, hadds⟩ := runs_newTable (ε := ε) ho 0 ms.length
    obtain ⟨h₂, hrun₂, hfilled⟩ := members_fillMembers arrayMeta t hms hadds.orderly hadds.inUse
      (by rw [hadds.table]; rfl) (by rw [hadds.table]; simpa using le_roomFor_of_few hmany) hnames
      (by rw [hadds.table]; exact fun _ _ => rfl)
    exact ⟨.table t, h₂, hrun₁.bind (hrun₂.bind runs_done), ((hadds.extends _).trans hfilled.ext).new hadds,
      hfilled.shows hadds hmany⟩

theorem elements_fillElements (arrayMeta t k : Nat) {js : List Json} (hjs : ∀ j ∈ js, Plain j) {h : Heap}
    (ho : h.Orderly) (ht : h.InUse t) (hlimit : (h.table t).limit = (h.table t).dense.size)
    (hroom : k + js.length ≤ (h.table t).dense.size) (hmany : k + js.length ≤ maxElements) :
    ∃ h', (fillElements arrayMeta t (Int64.ofNat (k + 1)) js : Program ε Unit).Runs h () h' [] ∧
      ElementsFilled arrayMeta t k js h h' := by
  cases js with
  | nil => exact ⟨h, rfl, elementsFilled_nil arrayMeta t k ho⟩
  | cons j js =>
    rw [List.length_cons] at hroom hmany
    obtain ⟨v, h₁, hrun₁, hext, hshows⟩ := shows_ofJson arrayMeta (hjs j List.mem_cons_self) ho
    have ht₁ := hext.inUse t ht
    have hext₂ := Heap.Extends.of_updateTable hext.orderly t (·.set (.int (Int64.ofNat (k + 1))) v)
    have htable₂ : (h₁.updateTable t (·.set (.int (Int64.ofNat (k + 1))) v)).table t =
        { h.table t with dense := (h.table t).dense.setIfInBounds k v } := by
      have hbound := maxElements_lt
      rw [Heap.table_updateTable ht₁, hext.table t ht id, Table.set_element (by omega) (by omega) hlimit]
    obtain ⟨h', hrun₂, hfilled⟩ := elements_fillElements arrayMeta t (k + 1)
      (fun i hi => hjs i (List.mem_cons_of_mem _ hi)) hext₂.orderly (hext₂.inUse t ht₁)
      (by rw [htable₂]; simpa using hlimit) (by rw [htable₂]; simp; omega) (by omega)
    refine ⟨h', hrun₁.bind ((runs_rawSet rfl).bind ?_),
      elementsFilled_cons ht (by omega) hext hshows hext₂ htable₂ hfilled⟩
    rw [ofNat_add_one]
    exact hrun₂

theorem members_fillMembers (arrayMeta t : Nat) {ms : List (String × Json)} (hms : ∀ m ∈ ms, Plain m.2) {h : Heap}
    (ho : h.Orderly) (ht : h.InUse t) (hlimit : (h.table t).limit = (h.table t).dense.size)
    (hroom : (h.table t).other.size + ms.length ≤ (h.table t).capacity) (hnames : (ms.map Prod.fst).Nodup)
    (hnew : ∀ m ∈ ms, (h.table t).other.get? (.ofString m.1) = none) :
    ∃ h', (fillMembers arrayMeta t ms : Program ε Unit).Runs h () h' [] ∧ MembersFilled arrayMeta t ms h h' := by
  cases ms with
  | nil => exact ⟨h, rfl, membersFilled_nil arrayMeta t ho⟩
  | cons m ms =>
    obtain ⟨k, j⟩ := m
    rw [List.length_cons] at hroom
    rw [List.map_cons, List.nodup_cons] at hnames
    obtain ⟨v, h₁, hrun₁, hext, hshows⟩ := shows_ofJson arrayMeta (hms (k, j) List.mem_cons_self) ho
    have ht₁ := hext.inUse t ht
    have hext₂ := Heap.Extends.of_updateTable hext.orderly t (·.set (.ofString k) v)
    have hk := hnew (k, j) List.mem_cons_self
    have hcontains : (h.table t).other.contains (.ofString k) = false := by rw [KeyMap.contains_eq, hk]; rfl
    have htable₂ : (h₁.updateTable t (·.set (.ofString k) v)).table t =
        { h.table t with other := (h.table t).other.insert (.ofString k) v } := by
      rw [Heap.table_updateTable ht₁, hext.table t ht id]
      exact Table.set_member hlimit hshows.isNil_eq_false hcontains (by omega)
    have hnew₂ : ∀ m ∈ ms, ((h.table t).other.insert (.ofString k) v).get? (.ofString m.1) = none := by
      intro m hm
      have hne : m.1 ≠ k := fun hmk => hnames.1 (hmk ▸ List.mem_map.mpr ⟨m, hm, rfl⟩)
      rw [get?_insert_ofString, if_neg hne]
      exact hnew m (List.mem_cons_of_mem _ hm)
    obtain ⟨h', hrun₂, hfilled⟩ := members_fillMembers arrayMeta t
      (fun m hm => hms m (List.mem_cons_of_mem _ hm)) hext₂.orderly (hext₂.inUse t ht₁)
      (by rw [htable₂]; exact hlimit)
      (by rw [htable₂]; simp only [Std.TreeMap.size_insert, hcontains, Bool.false_eq_true, if_false]; omega)
      hnames.2 (by rw [htable₂]; exact hnew₂)
    exact ⟨h', hrun₁.bind ((runs_rawSet rfl).bind hrun₂),
      membersFilled_cons ht hcontains hnames.1 hext hshows hext₂ htable₂ hfilled⟩
end

end StrategyBench.Sandbox.Exchange

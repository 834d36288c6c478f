/-
StrategyBench.Proofs.Sandbox.Redeclaration — a declared field, declared again by the table that was returned.

The entries of a list are read one after the other, each of them as if it were alone. So each table among
them that a builder has returned, and that has not changed, is collected as its field without nulls, and none
of them is refused (`returned_tables_declare_again`).
-/

import StrategyBench.Proofs.Sandbox.Returned

namespace StrategyBench.Sandbox

open Lua Program

namespace Capability

open Exchange Declaration

/-! ## Lists of a strategy -/

/-- The fields that values declare, one for each; that of a table that shows a field is the field without nulls. -/
structure DeclareAgain (arrayMeta : Nat) (h : Heap) (vs : List Value) (ds : List Field) : Prop where
  length : ds.length = vs.length
  field : ∀ i (hi : i < vs.length) d, ShowsField arrayMeta h vs[i] d → ds[i]? = some d.withoutNulls

theorem declareAgain_cons {arrayMeta : Nat} {h : Heap} {v : Value} {vs : List Value} {f : Field} {ds : List Field}
    (hf : ∀ d, ShowsField arrayMeta h v d → f = d.withoutNulls) (hds : DeclareAgain arrayMeta h vs ds) :
    DeclareAgain arrayMeta h (v :: vs) (f :: ds) where
  length := by rw [List.length_cons, List.length_cons, hds.length]
  field i hi d hd := by
    cases i with
    | zero => exact congrArg some (hf d hd)
    | succ i => exact hds.field i (by simpa using hi) d hd

section Entries

variable {x : Fixtures} {c : Category} {kind : String} {h g : Heap} {t : Nat}

/-- What the entries of a list come to, if they are all read. -/
theorem entriesFrom_declareAgain {k n : Nat} {vs : List Value} (hvs : Lists h t k vs) (hn : vs.length ≤ n)
    {acc fields : List Field} {g' : Heap} {es : List Declared} (hg : h.Similar g)
    (hrun : (entriesFrom x c kind t acc (Int64.ofNat (k + 1)) n).Runs g fields g' es) :
    ∃ ds, fields = acc.reverse ++ ds ∧ DeclareAgain x.arrayMeta h vs ds := by
  induction vs generalizing k n acc g es with
  | nil =>
    have hnone : DeclareAgain x.arrayMeta h [] [] := ⟨rfl, fun i hi => absurd hi (Nat.not_lt_zero i)⟩
    cases n with
    | zero =>
      obtain ⟨rfl, -, -⟩ := runs_done_iff.mp hrun
      exact ⟨[], (List.append_nil _).symm, hnone⟩
    | succ n =>
      obtain ⟨g₁, hlast, -⟩ := hvs.runs_last (ε := Declared) hg
      obtain ⟨v, _, _, _, hget, hrest, rfl⟩ := runs_bind_iff.mp hrun
      obtain ⟨rfl, rfl, rfl⟩ := hget.unique hlast
      obtain ⟨rfl, -, -⟩ := runs_done_iff.mp hrest
      exact ⟨[], (List.append_nil _).symm, hnone⟩
  | cons v vs ih =>
    rw [List.length_cons] at hn
    obtain ⟨n, rfl⟩ := Nat.exists_eq_add_of_le' (Nat.one_le_of_lt hn)
    obtain ⟨g₁, hfirst, hg₁⟩ := hvs.runs_first (ε := Declared) hg
    obtain ⟨w, _, _, _, hget, hentry, rfl⟩ := runs_bind_iff.mp hrun
    obtain ⟨rfl, rfl, rfl⟩ := hget.unique hfirst
    rw [hvs.present w List.mem_cons_self, if_neg Bool.false_ne_true] at hentry
    obtain ⟨raw, g₂, _, _, hread, hdeclare, rfl⟩ := runs_bind_iff.mp hentry
    obtain ⟨hlooked, rfl⟩ := (looks_read _ _).of_runs hread
    obtain ⟨f, _, _, _, hbrought, hothers, rfl⟩ := runs_bind_iff.mp hdeclare
    obtain ⟨hf, rfl, rfl⟩ := runs_normalized_iff.mp hbrought
    rw [ofNat_add_one] at hothers
    obtain ⟨ds, rfl, hds⟩ := ih hvs.tail (by omega) (hg₁.trans hlooked) hothers
    refine ⟨f :: ds, ?_, declareAgain_cons (fun d hd => ?_) hds⟩
    · rw [List.reverse_cons, List.append_assoc, List.singleton_append]
    · obtain ⟨raw', g₃, hread', hd⟩ := hd.exists_read (ε := Declared) hg₁ c kind
      obtain ⟨rfl, -, -⟩ := hread.unique hread'
      exact Option.some.inj (hf.symm.trans hd)

/-- Tables that show fields are all read. -/
theorem runs_entriesFrom {k n : Nat} {vs : List Value} (hvs : Lists h t k vs) (hn : vs.length ≤ n)
    (hall : ∀ v ∈ vs, ∃ d, ShowsField x.arrayMeta h v d) (acc : List Field) (hg : h.Similar g) :
    ∃ fields g', (entriesFrom x c kind t acc (Int64.ofNat (k + 1)) n).Runs g fields g' [] := by
  induction vs generalizing k n acc g with
  | nil =>
    cases n with
    | zero => exact ⟨_, g, runs_done⟩
    | succ n =>
      obtain ⟨g₁, hlast, -⟩ := hvs.runs_last (ε := Declared) hg
      exact ⟨_, g₁, hlast.bind runs_done⟩
  | cons v vs ih =>
    rw [List.length_cons] at hn
    obtain ⟨n, rfl⟩ := Nat.exists_eq_add_of_le' (Nat.one_le_of_lt hn)
    obtain ⟨g₁, hfirst, hg₁⟩ := hvs.runs_first (ε := Declared) hg
    obtain ⟨d, hd⟩ := hall v List.mem_cons_self
    obtain ⟨raw, g₂, hread, hdeclared⟩ := hd.exists_read (ε := Declared) hg₁ c kind
    have hlooked := hg₁.trans ((looks_read _ _).of_runs hread).1
    obtain ⟨fields, g', hothers⟩ := ih (n := n) hvs.tail (by omega) (fun w hw => hall w (List.mem_cons_of_mem _ hw))
      (d.withoutNulls :: acc) hlooked
    refine ⟨fields, g', hfirst.bind ?_⟩
    rw [hvs.present v List.mem_cons_self, if_neg Bool.false_ne_true]
    refine hread.bind ((runs_normalized_iff.mpr ⟨hdeclared, rfl, rfl⟩).bind ?_)
    rw [ofNat_add_one]
    exact hothers

variable {calls : Callees}

/-- The list of a category is found in the table of a strategy, where functions may be called to look for it; it
is read in the heap that they leave. -/
def Finds (calls : Callees) (h : Heap) (t : Nat) (c : Category) (vs : List Value) (g : Heap) : Prop :=
  ∃ l, (Operation.index (.table t) (.ofString c.plural) : Declaring Value).RunsWith calls h (.table l) g [] ∧
    Lists g l 0 vs

/-- There is no list of a category in the table of a strategy. -/
def Lacks (calls : Callees) (h : Heap) (t : Nat) (c : Category) : Prop :=
  ∃ g, (Operation.index (.table t) (.ofString c.plural) : Declaring Value).RunsWith calls h .nil g []

-- what a text is brought to is of no matter below, and takes long to unfold
attribute [local irreducible] normalized

theorem looks_entriesFrom (acc : List Field) (i : Int64) (n : Nat) : (entriesFrom x c kind t acc i n).Looks := by
  induction n generalizing acc i with
  | zero => trivial
  | succ n ih =>
    refine Looks.bind (looks_rawGet _ _) fun v => ?_
    split
    · trivial
    · exact Looks.bind (looks_read _ _) fun raw => Looks.bind (looks_normalized raw c kind) fun f => ih _ _

/-- Reading a list emits nothing. -/
theorem entries_silent {fields? : Option (List Field)} {h' : Heap} {es : List Declared}
    (hrun : (entries x t c).RunsWith calls h fields? h' es) : es = [] := by
  obtain ⟨found, k, es, fs, hfound, hrest, rfl⟩ := runs_bind_iff.mp hrun
  have hnone := ((Operation.emits_index (P := fun _ => False) _ _).of_runs hfound).2
  obtain rfl := List.eq_nil_iff_forall_not_mem.mpr hnone
  split at hrest
  · exact (runs_done_iff.mp hrest).2.2
  · obtain ⟨fields, _, _, _, hentries, hdone, rfl⟩ := runs_bind_iff.mp hrest
    obtain ⟨-, rfl⟩ := (looks_entriesFrom _ _ _).of_runs hentries
    obtain ⟨-, -, rfl⟩ := runs_done_iff.mp hdone
    rfl
  · exact absurd hrest (runs_fail _)

/-- What the list of a category comes to, if all of it is read. -/
theorem entries_declareAgain {vs : List Value} (hlist : Finds calls h t c vs g) {fields? : Option (List Field)}
    {h' : Heap} {es : List Declared} (hrun : (entries x t c).RunsWith calls h fields? h' es) :
    ∃ fields, fields? = some fields ∧ DeclareAgain x.arrayMeta g vs fields := by
  obtain ⟨l, htable, hvs⟩ := hlist
  obtain ⟨found, _, _, _, hfound, hrest, rfl⟩ := runs_bind_iff.mp hrun
  obtain ⟨rfl, rfl, rfl⟩ := hfound.unique htable
  obtain ⟨fields, _, _, _, hentries, hdone, rfl⟩ := runs_bind_iff.mp hrest
  obtain ⟨rfl, rfl, rfl⟩ := runs_done_iff.mp hdone
  have hfew := hvs.few
  obtain ⟨ds, hfields, hds⟩ :=
    entriesFrom_declareAgain hvs (by omega) (.refl _) ((looks_entriesFrom _ _ _).runs hentries)
  exact ⟨fields, rfl, hfields ▸ hds⟩

/-- A list of tables that show fields is read. -/
theorem runs_entries
    (hlist : Lacks calls h t c ∨
      ∃ vs g, Finds calls h t c vs g ∧ ∀ v ∈ vs, ∃ d, ShowsField x.arrayMeta g v d) :
    ∃ fields? h', (entries x t c).RunsWith calls h fields? h' [] := by
  rcases hlist with ⟨g, hnone⟩ | ⟨vs, g, ⟨l, htable, hvs⟩, hall⟩
  · exact ⟨none, g, hnone.bind runs_done⟩
  · have hfew := hvs.few
    have hn : vs.length ≤ maxElements := by omega
    obtain ⟨fields, g', hentries⟩ : ∃ fields g',
        (entriesFrom x c (entryKind c) l [] (Int64.ofNat (0 + 1)) maxElements).Runs g fields g' [] :=
      runs_entriesFrom hvs hn hall [] (.refl g)
    exact ⟨some fields, g', htable.bind ((runsWith_of_runs calls hentries).bind runs_done)⟩

end Entries

/-! ## Strategies -/

/-- Where the list of a category is looked for: that of the factors once the parameters have been read. -/
def LookedForIn (x : Fixtures) (calls : Callees) (h : Heap) (t : Nat) : Category → Heap → Prop
  | .parameter, k => k = h
  | .factor, k => ∃ parameters, (entries x t .parameter).RunsWith calls h parameters k []

/-- A table that a builder has returned for a field, and that has not changed when the list that it is in is read,
is never refused as an entry of either list of a strategy, and is collected there as that field without the nulls
inside its payloads; as that field itself if there are none. Functions that are called to look for the lists may
answer anything, and do anything before. -/
theorem returned_tables_declare_again {x : Fixtures} {calls : Callees} {h : Heap} {t : Nat} {rest : List Value} :
    (∀ answers h' es, (define x (.table t :: rest)).RunsWith calls h answers h' es →
      ∃ e, es = [e] ∧ ∀ c k vs g, LookedForIn x calls h t c k → Finds calls k t c vs g → ∀ before : Collected,
        ((before.add e).schema.fields c).length = vs.length ∧
        ∀ i (hi : i < vs.length) d, Returned x g vs[i] d →
          ((before.add e).schema.fields c)[i]? = some d.withoutNulls ∧
          (d.Payloads Json.NullFree → ((before.add e).schema.fields c)[i]? = some d)) ∧
    ((∀ c k, LookedForIn x calls h t c k →
        Lacks calls k t c ∨ ∃ vs g, Finds calls k t c vs g ∧ ∀ v ∈ vs, ∃ d, Returned x g v d) →
      ∃ h' e, (define x (.table t :: rest)).RunsWith calls h [.table t] h' [e]) := by
  constructor
  · intro answers h' es hrun
    obtain ⟨parameters, k₁, _, _, hparameters, hrest, rfl⟩ := runs_bind_iff.mp hrun
    obtain rfl := entries_silent hparameters
    obtain ⟨factors, k₂, _, _, hfactors, hemit, rfl⟩ := runs_bind_iff.mp hrest
    obtain rfl := entries_silent hfactors
    obtain ⟨_, rfl, hdone⟩ := runs_emit_iff.mp hemit
    obtain ⟨rfl, rfl, rfl⟩ := runs_done_iff.mp hdone
    refine ⟨.strategy (.table t) parameters factors, rfl, fun c k vs g hk hvs before => ?_⟩
    have hcollected : ∃ fields, (before.add (.strategy (.table t) parameters factors)).schema.fields c = fields ∧
        DeclareAgain x.arrayMeta g vs fields := by
      cases c with
      | parameter =>
        obtain rfl := hk
        obtain ⟨fields, rfl, hagain⟩ := entries_declareAgain hvs hparameters
        exact ⟨fields, rfl, hagain⟩
      | factor =>
        obtain ⟨ps, hps⟩ := hk
        obtain ⟨-, rfl, -⟩ := hps.unique hparameters
        obtain ⟨fields, rfl, hagain⟩ := entries_declareAgain hvs hfactors
        exact ⟨fields, rfl, hagain⟩
    obtain ⟨fields, hfields, hagain⟩ := hcollected
    rw [hfields]
    refine ⟨hagain.length, fun i hi d hd => ?_⟩
    have hfield := hagain.field i hi d hd.shows
    exact ⟨hfield, fun hfree => Field.withoutNulls_of_nullFree hfree ▸ hfield⟩
  · intro hall
    have hlist (c : Category) (k : Heap) (hk : LookedForIn x calls h t c k) :
        ∃ fields? k', (entries x t c).RunsWith calls k fields? k' [] := by
      refine runs_entries ((hall c k hk).imp_right ?_)
      rintro ⟨vs, g, hvs, hreturned⟩
      refine ⟨vs, g, hvs, fun v hv => ?_⟩
      obtain ⟨d, hd⟩ := hreturned v hv
      exact ⟨d, hd.shows⟩
    obtain ⟨parameters, k, hparameters⟩ := hlist .parameter h rfl
    obtain ⟨factors, k', hfactors⟩ := hlist .factor k ⟨parameters, hparameters⟩
    exact ⟨k', _, hparameters.bind (hfactors.bind (runs_emit_iff.mpr ⟨[], rfl, runs_done⟩))⟩

/-- Options whose default is an array of what is no number and of seven. -/
def nanOptions : Heap where
  tables := #[{}, { other := ({} : KeyMap).insert (.ofString "default") (.table 2), capacity := 1 },
    { dense := #[.float .invalid, .int 7], limit := 2, meta? := some 0 }]

/-- What the options are read as: what is no number becomes null. -/
def nanRead : Json := .obj [("default", .arr [.null, .int 7])]

theorem runs_read_nanOptions :
    ∃ g, (Exchange.read 0 (.table 1) : Declaring Json).Runs nanOptions nanRead g [] := by
  have hlist : (nanOptions.table 1).other.toList = [(.ofString "default", .table 2)] := rfl
  have hdefault (g : Heap) (hg : nanOptions.Similar g) :
      ∃ g', (toJson 0 3 [1] (.table 2) : Declaring Json).Runs g (.arr [.null, .int 7]) g' [] := by
    have hall : List.Forall₂ (ReadsAs (ε := Declared) (toJson 0 2 [2, 1]) [2, 1] nanOptions)
        (nanOptions.table 2).dense.toList [some .null, some (.int 7)] := by
      refine .cons ⟨rfl, nofun, rfl, ?_⟩ (.cons ⟨rfl, nofun, rfl, ?_⟩ .nil)
      · intro j hj g _
        obtain rfl := Option.some.inj hj
        exact ⟨g, runs_done⟩
      · intro j hj g _
        obtain rfl := Option.some.inj hj
        exact ⟨g, runs_done⟩
    have hlists : Lists nanOptions 2 0 (nanOptions.table 2).dense.toList :=
      lists_dense rfl (by decide) (by simp [nanOptions, Heap.table, Value.isNil])
    exact runs_array (runs_isArray_true (hg.table 2).meta?) hall hlists hg
  have hreads : ∀ e ∈ (nanOptions.table 1).other.toList, ∃ name, e.1 = .ofString name ∧
      ReadsAs (toJson 0 3 [1] : Value → Declaring Json) [1] nanOptions e.2 (some (.arr [.null, .int 7])) := by
    intro e he
    obtain rfl := List.mem_singleton.mp (hlist ▸ he)
    refine ⟨"default", rfl, rfl, fun t ht => by cases ht; decide, rfl, fun j hj => ?_⟩
    obtain rfl := Option.some.inj hj
    exact hdefault
  obtain ⟨ns, g, hrun, hns⟩ := runs_object_of_names rfl rfl (by decide) hreads (.refl nanOptions)
  have hmembers : ns = [("default", .arr [.null, .int 7])] := by
    refine Json.eq_of_lookup hns.ascending (List.pairwise_singleton _ _) fun q => Option.ext fun j => ?_
    rw [hns.lookup, hlist, Json.lookup_cons_eq]
    by_cases hq : q = "default" <;> simp [hq, ofString_inj]
  rw [nanRead, ← hmembers]
  exact ⟨g, runs_tableCount.bind hrun⟩

/-- A builder returns a table for those options. -/
theorem returned_nanOptions :
    ∃ h v d, h.Orderly ∧ Returned ⟨0, 0⟩ h v d ∧ d.defaultValue = some (.arr [.null, .int 7]) := by
  obtain ⟨g, hread⟩ := runs_read_nanOptions
  have ho : nanOptions.Orderly := ⟨List.nodup_nil, by simp [nanOptions]⟩
  have hnormal : (normalize? (declaration (some (.str "k")) nanRead) .parameter "number").map Field.defaultValue =
      some (some (.arr [.null, .int 7])) := by rfl
  obtain ⟨d, hd, hdefault⟩ := Option.map_eq_some_iff.mp hnormal
  obtain ⟨v, h, hbuild⟩ := runs_build (x := ⟨0, 0⟩) (by decide) ho hread hd []
  obtain ⟨w, e, hw, he, hreturned⟩ := (returned_of_build (by decide) ho hbuild).1
  obtain ⟨rfl, -⟩ := List.cons.inj hw
  obtain ⟨-, rfl⟩ := Declared.field.inj (List.cons.inj he).1
  exact ⟨h, v, d, hbuild.orderly ho, hreturned, hdefault⟩

/-- A strategy can be made that has a value as its only factor, and no parameters. -/
theorem exists_strategy {x : Fixtures} {h : Heap} (ho : h.Orderly) {v : Value} (hv : v.isNil = false) :
    ∃ h' t k g, h.Keeps h' ∧ Lacks (fun _ _ _ => none) h' t .parameter ∧
      (entries x t .parameter).Runs h' none k [] ∧ Finds (fun _ _ _ => none) k t .factor [v] g ∧ h'.Keeps g := by
  obtain ⟨l, h₁, hl⟩ : ∃ l h₁, h.Adds { dense := #[v], limit := 1 } l h₁ := ⟨_, _, Heap.addTable_spec ho _⟩
  obtain ⟨t, h', ht⟩ : ∃ t h',
      h₁.Adds { other := ({} : KeyMap).insert (.ofString "factors") (.table l), capacity := 1 } t h' :=
    ⟨_, _, Heap.addTable_spec hl.orderly _⟩
  have hnone : (h'.table t).get (.ofString "parameters") = .nil := by
    rw [ht.table, get_ofString, get?_insert_ofString, if_neg (by decide)]
    rfl
  obtain ⟨k, habsent, hk⟩ := Operation.runs_index_absent (ε := Declared) rfl hnone (by rw [ht.table])
  have hfound : (k.table t).get (.ofString "factors") = .table l := by
    rw [(hk.table t).get, ht.table, get_ofString, get?_insert_ofString, if_pos rfl]
    rfl
  obtain ⟨g, hindex, hg⟩ := Operation.runs_index_found (ε := Declared) rfl hfound rfl
  have hlist : ({ dense := #[v], limit := 1 } : Table).Similar (g.table l) := by
    rw [← hl.table, ← (ht.keeps l hl.inUse).2]
    exact (hk.trans hg).table l
  have hone : 1 ≤ maxElements := by decide
  have hvalues : Lists g l 0 (g.table l).dense.toList :=
    lists_dense hlist.other (hlist.dense ▸ hone) (by rw [hlist.dense]; simpa using hv)
  rw [hlist.dense] at hvalues
  exact ⟨h', t, k, g, (hl.extends _).keeps.trans (ht.extends _).keeps, ⟨k, habsent⟩, habsent.bind runs_done,
    ⟨l, hindex, hvalues⟩, (hk.trans hg).keeps⟩

/-- A number that is none is null when it is declared, and is dropped when its field is declared again. -/
theorem nan_dropped_when_declared_again :
    ∃ (h h' : Heap) (v : Value) (d : Field) (t : Nat) (e : Declared),
      Returned ⟨0, 0⟩ h v d ∧ d.defaultValue = some (.arr [.null, .int 7]) ∧
      (define ⟨0, 0⟩ [.table t]).Runs h [.table t] h' [e] ∧
      (({} : Collected).add e).factors[0]? = some d.withoutNulls ∧
      d.withoutNulls.defaultValue = some (.arr [.int 7]) := by
  obtain ⟨h₁, v, d, ho, hreturned, hdefault⟩ := returned_nanOptions
  obtain ⟨h, t, k, g, hkeeps, hlacks, hparameters, hfactors, hkept⟩ :=
    exists_strategy (x := ⟨0, 0⟩) ho hreturned.shows.shows.isNil_eq_false
  have hd : Returned ⟨0, 0⟩ h v d := hreturned.keeps hkeeps
  obtain ⟨h', e, hrun⟩ : ∃ h' e, (define ⟨0, 0⟩ [.table t]).Runs h [.table t] h' [e] := by
    refine returned_tables_declare_again.2 fun c m hm => ?_
    cases c with
    | parameter =>
      obtain rfl := hm
      exact .inl hlacks
    | factor =>
      obtain ⟨_, hps⟩ := hm
      obtain ⟨-, rfl, -⟩ := hps.unique hparameters
      refine .inr ⟨[v], g, hfactors, fun w hw => ?_⟩
      obtain rfl := List.mem_singleton.mp hw
      exact ⟨d, hd.keeps hkept⟩
  obtain ⟨_, he, hcollected⟩ := returned_tables_declare_again.1 _ _ _ hrun
  obtain ⟨rfl, -⟩ := List.cons.inj he
  have hfactor := ((hcollected .factor k [v] g ⟨none, hparameters⟩ hfactors {}).2 0 Nat.one_pos d (hd.keeps hkept)).1
  refine ⟨h, h', v, d, t, e, hd, hdefault, hrun, hfactor, ?_⟩
  rw [Field.withoutNulls, hdefault]
  rfl

end Capability
end StrategyBench.Sandbox

/-
StrategyBench.Proofs.Sandbox.Returned — the tables that builders return.

A builder answers one table, which shows the field that it has declared (`answers_of_build`). As long as what
the table holds is as it was (`Returned`) it shows that field, and is read as its members without the nulls
inside its payloads, which declare the field without nulls (`ShowsField.exists_read`). That is so wherever a
script calls a builder (`call_of_builder_returns`).
-/

import StrategyBench.Proofs.Field.Nulls
import StrategyBench.Proofs.Lua.Numbering
import StrategyBench.Proofs.Sandbox.Reading
import StrategyBench.Proofs.Sandbox.Refusal

namespace StrategyBench.Sandbox

open Lua Program

namespace Exchange.Shows

variable {arrayMeta : Nat} {h g : Heap} {allowed : Nat → Prop} {v : Value} {j : Json}

/-- A value shows JSON through tables that it holds. -/
theorem reached (hs : Shows arrayMeta h allowed v j) : Shows arrayMeta h (fun u => allowed u ∧ h.Reaches v u) v j := by
  induction hs with
  | null => exact .null
  | bool b => exact .bool b
  | int i => exact .int i
  | float hx => exact .float hx
  | str s => exact .str s
  | @arr allowed t js ht hmeta hother hsize hmany _ ih =>
    refine .arr ⟨ht, .self t⟩ hmeta hother hsize hmany fun i hi => ?_
    exact (ih i hi).transport fun u hu => ⟨⟨⟨hu.1.1, .element i hu.2⟩, hu.1.2⟩, Table.Similar.refl _⟩
  | @obj allowed t ms ht hmeta hdense hmany hkeys hnames _ ih =>
    refine .obj ⟨ht, .self t⟩ hmeta hdense hmany hkeys hnames fun name v j hv hj => ?_
    exact (ih name v j hv hj).transport fun u hu => ⟨⟨⟨hu.1.1, .member hv hu.2⟩, hu.1.2⟩, Table.Similar.refl _⟩

/-- A value that has not changed shows what it has shown. -/
theorem unchanged (hs : Shows arrayMeta h allowed v j) (hu : h.Unchanged v g) : Shows arrayMeta g g.InUse v j :=
  hs.reached.transport fun u hu' => hu u hu'.2

/-- A value that shows JSON holds no other tables. -/
theorem allowed_of_reaches (hs : Shows arrayMeta h allowed v j) : ∀ u, h.Reaches v u → allowed u := by
  induction hs with
  | @arr allowed t js ht hmeta hother hsize hmany _ ih =>
    intro u hu
    cases hu with
    | self => exact ht
    | element i hu =>
      by_cases hi : i < js.length
      · exact (ih i hi u hu).1
      · rw [Array.getD_eq_getD_getElem?, Array.getElem?_eq_none (by omega)] at hu
        cases hu
    | member hv => rw [hother] at hv; cases hv
  | @obj allowed t ms ht hmeta hdense hmany hkeys hnames _ ih =>
    intro u hu
    cases hu with
    | self => exact ht
    | element i hu => rw [hdense] at hu; cases hu
    | member hv hu =>
      obtain ⟨k, -, hmem⟩ := Std.TreeMap.getElem?_eq_some_iff_exists_compare_eq_eq_and_mem_toList.mp hv
      obtain ⟨name, rfl⟩ := hkeys _ hmem
      have hget := KeyMap.get?_of_mem_toList hmem
      have hsome := hnames name
      rw [hget] at hsome
      obtain ⟨j, hj⟩ := Option.isSome_iff_exists.mp hsome.symm
      exact (ih name _ j hget hj u hu).1
  | _ => intro u hu; cases hu

end Exchange.Shows

namespace Exchange

/-! ## Fields as tables -/

theorem handedOn_readable : Json.HandedOn Readable where
  str s := ⟨.str s, .str s⟩
  arr js hjs j hj := by
    obtain ⟨hplain, hordered⟩ := hjs
    cases hplain with
    | arr _ h => exact ⟨h j hj, Json.ordered_arr_iff.mp hordered j hj⟩
  obj ms hms m hm := by
    obtain ⟨hplain, hordered⟩ := hms
    cases hplain with
    | obj _ _ h => exact ⟨h m hm, (Json.ordered_obj_iff.mp hordered).2 m hm⟩

theorem readable_choice {c : Choice} (h : Readable c.value) : Readable c.toJson := by
  have hlabel : Readable (.str c.label) := handedOn_readable.str _
  have hmembers {P : Json → Prop} (hP : ∀ j, Readable j → P j) :
      ∀ m ∈ [("label", Json.str c.label), ("value", c.value)], P m.2 := by
    simp [hP _ hlabel, hP _ h]
  have hfew : 2 ≤ maxElements := by decide
  have hnames : ["label", "value"].Nodup := by decide
  have horder : "label" < "value" := by decide
  exact ⟨.obj hfew hnames (hmembers fun j hj => hj.1), .obj (List.pairwise_pair.mpr horder) (hmembers fun j hj => hj.2)⟩

/-- A field of payloads that can be read back, and of no more choices than are read, can be read back. -/
theorem readable_members {f : Field} (hpayloads : f.Payloads Readable)
    (hmany : ∀ cs ∈ f.choices, cs.length ≤ maxElements) :
    ∃ ms, f.toJson = .obj ms ∧ (ms.map Prod.fst).Nodup ∧ Plain (.obj ms) ∧ ∀ m ∈ ms, m.2.Ordered := by
  have hchoices : ∀ cs ∈ f.choices, Readable (.arr (cs.map Choice.toJson)) := by
    intro cs hcs
    have hall : ∀ j ∈ cs.map Choice.toJson, Readable j := by
      intro j hj
      obtain ⟨c, hc, rfl⟩ := List.mem_map.mp hj
      exact readable_choice (hpayloads.choices cs hcs c hc)
    exact ⟨.arr (by simpa using hmany cs hcs) fun j hj => (hall j hj).1, .arr fun j hj => (hall j hj).2⟩
  obtain ⟨ms, hms, hnames, hall⟩ :=
    f.exists_members handedOn_readable.str (fun b => ⟨.bool b, .bool b⟩) hchoices hpayloads
  have hfew : Field.memberNames.length ≤ maxElements := by decide
  have hlength := hnames.length_le
  rw [List.length_map] at hlength
  have hdistinct : (ms.map Prod.fst).Nodup := hnames.nodup (by decide)
  exact ⟨ms, hms, hdistinct, .obj (hlength.trans hfew) hdistinct fun m hm => (hall m hm).1, fun m hm => (hall m hm).2⟩

/-- A table that shows a field, the members of which can be read back. -/
structure ShowsField (arrayMeta : Nat) (h : Heap) (v : Value) (f : Field) : Prop where
  canonical : f.Canonical
  members : ∃ ms, f.toJson = .obj ms ∧ (ms.map Prod.fst).Nodup ∧ ∀ m ∈ ms, m.2.Ordered
  shows : Shows arrayMeta h h.InUse v f.toJson

/-- A field that a value shows is read of it, and declares itself without nulls, in either category and for any
kind. -/
theorem ShowsField.exists_read {ε : Type} {arrayMeta : Nat} {h g : Heap} {v : Value} {f : Field}
    (hf : ShowsField arrayMeta h v f) (hg : h.Similar g) (c : Category) (kind : String) :
    ∃ raw g', (read arrayMeta v : Program ε Json).Runs g raw g' [] ∧
      Declaration.normalize? raw c kind = some f.withoutNulls := by
  obtain ⟨ms, hms, hnames, hordered⟩ := hf.members
  have hshows := hf.shows
  rw [hms] at hshows
  obtain ⟨raw, g', hrun, hraw⟩ := runs_read_members (ε := ε) hshows hordered hnames (fun _ hu => hu.1) hg
  refine ⟨raw, g', hrun, Declaration.normalize_of_kept hf.canonical (fun q => ?_) c kind⟩
  rw [hraw, hms]
  rfl

end Exchange

namespace Capability

open Exchange Declaration
open Text (Tidy)

/-! ## Builders -/

/-- What was declared with, and the key: JSON that has been read. -/
theorem get?_declaration {key : Option Json} {options : Json} (hkey : ∀ k ∈ key, Readable k)
    (hoptions : Readable options) {name : String} {v : Json} (hv : (declaration key options).get? name = some v) :
    Readable v := by
  have hobject : ∀ v, (asObject options).lookup name = some v → Readable v := by
    intro v hv
    cases options with
    | obj ms => exact handedOn_readable.get? hoptions hv
    | _ => cases hv
  cases key with
  | none => exact hobject v hv
  | some k =>
    rw [declaration, Json.get?, Json.lookup_insertMember] at hv
    split at hv
    · obtain rfl := Option.some.inj hv
      exact hkey k rfl
    · exact hobject v hv

theorem runs_normalized_iff {calls : Callees} {raw : Json} {c : Category} {kind : String} {h h' : Heap} {f : Field}
    {es : List Declared} :
    (normalized raw c kind).RunsWith calls h f h' es ↔ normalize? raw c kind = some f ∧ h' = h ∧ es = [] := by
  unfold normalized
  split
  · rename_i g hg
    rw [runs_done_iff, hg, Option.some.injEq, eq_comm]
  · rename_i hnone
    rw [hnone]
    exact ⟨fun hrun => absurd hrun (runs_fail _), fun hand => nomatch hand.1⟩

theorem looks_normalized (raw : Json) (c : Category) (kind : String) : (normalized raw c kind).Looks := by
  unfold normalized
  split <;> trivial

-- what a text is brought to is of no matter below, and takes long to unfold
attribute [local irreducible] normalized

/-- A field that is declared is made a new table that shows it. -/
theorem runs_ofField (arrayMeta : Nat) {c : Category} {kind : String} (hkind : Tidy kind) {raw : Json}
    (hraw : ∀ name v, raw.get? name = some v → Readable v) {d : Field} (hd : normalize? raw c kind = some d) {h : Heap}
    (ho : h.Orderly) :
    ∃ v h', (ofField arrayMeta d : Declaring Value).Runs h v h' [] ∧ h.Keeps h' ∧ ShowsField arrayMeta h' v d := by
  have hmany : ∀ cs ∈ d.choices, cs.length ≤ maxElements := by
    intro cs hcs
    obtain ⟨name, entries, hentries, rfl⟩ := exists_options_of_normalize hd hcs
    cases (hraw name _ hentries).1 with
    | arr hmany _ => exact (List.length_filterMap_le _ _).trans hmany
  obtain ⟨ms, hms, hnames, hplain, hordered⟩ :=
    readable_members (payloads_of_normalize handedOn_readable hraw hd) hmany
  obtain ⟨v, h', hrun, hext, hshows⟩ := shows_ofJson (ε := Declared) arrayMeta hplain ho
  rw [ofField, hms]
  refine ⟨v, h', hrun, hext.keeps, canonical_of_normalize hkind hd, ⟨ms, hms, hnames, hordered⟩, ?_⟩
  rw [hms]
  exact hshows.transport fun u hu => ⟨hu.1, Table.Similar.refl _⟩

/-- What an answer of a builder is like: one table that shows the one field it has declared, and all others kept. -/
structure Answers (arrayMeta : Nat) (c : Category) (h : Heap) (vs : List Value) (h' : Heap) (es : List Declared) :
    Prop where
  keeps : h.Keeps h'
  shows : ∃ v d, vs = [v] ∧ es = [.field c d] ∧ ShowsField arrayMeta h' v d

theorem Answers.after {arrayMeta : Nat} {c : Category} {h g h' : Heap} {vs : List Value} {es : List Declared}
    (ha : Answers arrayMeta c g vs h' es) (hg : h.Similar g) : Answers arrayMeta c h vs h' es :=
  ⟨hg.keeps.trans ha.keeps, ha.shows⟩

theorem answers_of_declared {calls : Callees} {x : Fixtures} {c : Category} {kind : String} (hkind : Tidy kind)
    {raw : Json} (hraw : ∀ name v, raw.get? name = some v → Readable v) {vs : List Value} {h h' : Heap}
    {es : List Declared}
    (ho : h.Orderly)
    (hrun : (do
      let f ← normalized raw c kind
      let shown ← ofField x.arrayMeta f
      emitEffect (.field c f)
      return [shown] : Declaring (List Value)).RunsWith calls h vs h' es) : Answers x.arrayMeta c h vs h' es := by
  obtain ⟨d, _, _, _, hbrought, hshow, rfl⟩ := runs_bind_iff.mp hrun
  obtain ⟨hd, rfl, rfl⟩ := runs_normalized_iff.mp hbrought
  obtain ⟨v, h₁, hfield, hkeeps, hshows⟩ := runs_ofField x.arrayMeta hkind hraw hd ho
  obtain ⟨w, _, _, _, hmade, hemit, rfl⟩ := runs_bind_iff.mp hshow
  obtain ⟨rfl, rfl, rfl⟩ := hmade.unique (runsWith_of_runs calls hfield)
  obtain ⟨fs, rfl, hdone⟩ := runs_emit_iff.mp hemit
  obtain ⟨rfl, rfl, rfl⟩ := runs_done_iff.mp hdone
  exact ⟨hkeeps, w, d, rfl, rfl, hshows⟩

/-- A builder that answers answers one table that shows the one field it has declared. -/
theorem answers_of_build {calls : Callees} {x : Fixtures} {c : Category} {kind : String} (hkind : Tidy kind)
    {args vs : List Value} {h h' : Heap} {es : List Declared} (ho : h.Orderly)
    (hrun : (build x c kind args).RunsWith calls h vs h' es) :
    Answers x.arrayMeta c h vs h' es := by
  have hread {v : Value} {h h' : Heap} {j : Json} {es : List Declared} (ho : h.Orderly)
      (hrun : (Exchange.read x.arrayMeta v).RunsWith calls h j h' es) :
      Readable j ∧ h.Similar h' ∧ es = [] ∧ h'.Orderly := by
    obtain ⟨hsimilar, hnone⟩ := (looks_read _ _).of_runs hrun
    exact ⟨((obeys_read (P := fun _ => True) _ _).of_runs hrun).1, hsimilar, hnone,
      ((looks_read _ _).runs hrun).orderly ho⟩
  unfold build at hrun
  extract_lets reads at hrun
  have hreads {options : Json} (hoptions : Readable options) {h : Heap} {es : List Declared} (ho : h.Orderly)
      (hrun : (reads options).RunsWith calls h vs h' es) : Answers x.arrayMeta c h vs h' es := by
    unfold reads at hrun
    extract_lets declares at hrun
    have hdeclares (key : Option Json) (hkey : ∀ k ∈ key, Readable k) {h : Heap} {es : List Declared} (ho : h.Orderly)
        (hrun : (declares key).RunsWith calls h vs h' es) : Answers x.arrayMeta c h vs h' es :=
      answers_of_declared hkind (fun name v => get?_declaration hkey hoptions) ho hrun
    split at hrun
    · exact hdeclares none nofun ho hrun
    · obtain ⟨key, h₁, _, _, hkey, hrest, rfl⟩ := runs_bind_iff.mp hrun
      obtain ⟨k, h₂, _, _, hk, hdone, rfl⟩ := runs_bind_iff.mp hkey
      obtain ⟨rfl, rfl, rfl⟩ := runs_done_iff.mp hdone
      obtain ⟨hreadable, hlooked, rfl, ho'⟩ := hread ho hk
      exact (hdeclares (some k) (by simpa using hreadable) ho' hrest).after hlooked
  split at hrun
  · obtain ⟨options, h₁, _, _, hoptions, hrest, rfl⟩ := runs_bind_iff.mp hrun
    obtain ⟨hreadable, hlooked, rfl, ho'⟩ := hread ho hoptions
    exact (hreads hreadable ho' hrest).after hlooked
  · exact hreads ⟨.null, .null⟩ ho hrun

/-- A builder with a text for its key answers, if the options are read and a field is declared with them. -/
theorem runs_build {x : Fixtures} {c : Category} {kind : String} (hkind : Tidy kind) {k : String} {t : Nat}
    {options : Json} {h g : Heap} (ho : h.Orderly)
    (hread : (Exchange.read x.arrayMeta (.table t) : Declaring Json).Runs h options g []) {d : Field}
    (hd : normalize? (declaration (some (.str k)) options) c kind = some d) (rest : List Value) :
    ∃ v h', (build x c kind (.ofString k :: .table t :: rest)).Runs h [v] h' [.field c d] := by
  have hoptions : Readable options := ((obeys_read (P := fun _ => True) _ _).of_runs hread).1
  have htext : (Exchange.read x.arrayMeta (.ofString k) : Declaring Json).Runs g (.str k) g [] := by
    refine runs_tableCount.bind ?_
    rw [Value.ofString, toJson, Bytes.text?_ofString]
    exact runs_done
  have hkey : (some <$> Exchange.read x.arrayMeta (.ofString k) : Declaring (Option Json)).Runs g (some (.str k)) g [] :=
    htext.bind runs_done
  have hg : g.Orderly := ((looks_read _ _).runs hread).orderly ho
  obtain ⟨v, h', hfield, -, -⟩ := runs_ofField x.arrayMeta hkind (fun name v => get?_declaration
    (fun k' hk' => Option.some.inj hk' ▸ handedOn_readable.str k) hoptions) hd hg
  exact ⟨v, h', hread.bind (hkey.bind ((runs_normalized_iff.mpr ⟨hd, rfl, rfl⟩).bind
    (hfield.bind (runs_emit_iff.mpr ⟨[], rfl, runs_done⟩))))⟩

/-- A builder has returned a table for a field, and nothing that the table holds has changed since. -/
def Returned (x : Fixtures) (h : Heap) (v : Value) (d : Field) : Prop :=
  ∃ c kind args calls h₀ h₁, builder c kind ∈ all ∧ h₀.Orderly ∧
    (build x c kind args).RunsWith calls h₀ [v] h₁ [.field c d] ∧ h₁.Unchanged v h

theorem tidy_of_mem_all {c : Category} {kind : String} (h : builder c kind ∈ all) : Tidy kind := by
  have htidy : ∀ b ∈ all, b.KindTidy := by decide
  exact htidy _ h

theorem Returned.shows {x : Fixtures} {h : Heap} {v : Value} {d : Field} (hd : Returned x h v d) :
    ShowsField x.arrayMeta h v d := by
  obtain ⟨c, kind, args, calls, h₀, h₁, hbuilder, ho, hrun, hunchanged⟩ := hd
  obtain ⟨w, e, hw, he, hshows⟩ := (answers_of_build (tidy_of_mem_all hbuilder) ho hrun).shows
  obtain ⟨rfl, -⟩ := List.cons.inj hw
  obtain ⟨-, rfl⟩ := Declared.field.inj (List.cons.inj he).1
  exact ⟨hshows.canonical, hshows.members, hshows.shows.unchanged hunchanged⟩

theorem Returned.keeps {x : Fixtures} {h g : Heap} {v : Value} {d : Field} (hd : Returned x h v d) (hg : h.Keeps g) :
    Returned x g v d := by
  obtain ⟨c, kind, args, calls, h₀, h₁, hbuilder, ho, hrun, hunchanged⟩ := hd
  exact ⟨c, kind, args, calls, h₀, h₁, hbuilder, ho, hrun, hunchanged.keeps hg⟩

/-- Whenever a builder answers, it has returned a table for a field; tables that it has returned before have not
changed. -/
theorem returned_of_build {calls : Callees} {x : Fixtures} {c : Category} {kind : String}
    (hbuilder : builder c kind ∈ all) {args vs : List Value} {h h' : Heap} {es : List Declared} (ho : h.Orderly)
    (hrun : (build x c kind args).RunsWith calls h vs h' es) :
    (∃ v d, vs = [v] ∧ es = [.field c d] ∧ Returned x h' v d) ∧ ∀ v d, Returned x h v d → Returned x h' v d := by
  obtain ⟨hkeeps, v, d, rfl, rfl, hshows⟩ := answers_of_build (tidy_of_mem_all hbuilder) ho hrun
  have hunchanged : h'.Unchanged v h' := fun t ht =>
    ⟨hshows.shows.allowed_of_reaches t ht, Table.Similar.refl _⟩
  exact ⟨⟨v, d, rfl, rfl, c, kind, args, calls, h, h', hbuilder, ho, hrun, hunchanged⟩, fun w e hw => hw.keeps hkeeps⟩

end Capability

/-! ## Calls by a script -/

theorem Environment.orderly_prepare (seed : Environment.Seed) (limit : Nat) :
    (Environment.prepare seed limit).heap.Orderly := Heap.orderly_of_none rfl

/-- No number of a table is ever dropped twice while a script runs. -/
theorem Stage.orderly {u : Conditions} {s : SandboxSettings} {script : CompiledScript} {m : Machine Declared}
    (hm : Stage u s script m) (n : Nat) : (m.after (builtins u s) n).heap.Orderly := by
  refine Machine.orderly_after (builtins u s) n ?_
  have hstart (chunk : Chunk) : (scriptMachine u s chunk).heap.Orderly :=
    Machine.orderly_start (Environment.orderly_prepare u.seed s.memoryLimitBytes) chunk (prepared u s).cell
  cases hm with
  | script hload => exact hstart _
  | @contract chunk results t m hload hrun hresults hexport => exact hrun ▸ Machine.orderly_run _ _ (hstart chunk)

namespace Capability

/-- A script has called a builder, which answers if it is left alone. Then the machine gets to its answer, a table
that has been returned for the field that is declared, unless memory runs out. -/
theorem call_of_builder_returns {u : Conditions} {s : SandboxSettings} {script : CompiledScript} {m : Machine Declared}
    (hm : Stage u s script m) {n : Nat} {c : Category} {kind : String} (hbuilder : builder c kind ∈ all)
    {p : Purpose} {args vs : List Value} {h' : Heap} {waiting : List (Waiting Declared)} {effects es : List Declared}
    (hcall : (m.after (builtins u s) n).At p (build (prepared u s).fixtures c kind args) (m.after (builtins u s) n).heap
      waiting effects)
    (hrun : (build (prepared u s).fixtures c kind args).Runs (m.after (builtins u s) n).heap vs h' es) :
    ∃ k, (m.after (builtins u s) k).OutOfMemory ∨ ∃ v d,
      (m.after (builtins u s) k).At p (.done [v]) h' waiting (.field c d :: effects) ∧
        Returned (prepared u s).fixtures h' v d := by
  obtain ⟨⟨v, d, rfl, rfl, hreturned⟩, -⟩ := returned_of_build hbuilder (hm.orderly n) hrun
  obtain ⟨k, hk⟩ := Machine.after_runOn (builtins u s) hcall hrun
  refine ⟨n + k, ?_⟩
  rw [Machine.after_add]
  exact hk.imp_right fun hat => ⟨v, d, hat, hreturned⟩

end Capability
end StrategyBench.Sandbox

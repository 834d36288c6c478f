/-
StrategyBench.Proofs.Sandbox.Options — which of its named options a builder declares a field with.

A table of options is read as an object, or as an array if it has a length. In the one case each option
comes to what its value is read as on its own (`optionRead_of_turn`), whatever is skipped beside it; in the
other all of them are lost, since an array has no names (`declaredWith_of_build`). Which of the two it is
is all that positional entries have to do with a declaration (`named_options_declared`). The tables have
their keys where they belong, which all of this rests on, whenever a script is at work (`Stage.sound`): so
it is true of each call that a script makes (`call_of_builder_declares_options`).
-/

import StrategyBench.Proofs.Field.Described
import StrategyBench.Proofs.Sandbox.DeclaringCalls
import StrategyBench.Proofs.Sandbox.ReadingInTurn

namespace StrategyBench.Sandbox

open Lua Program

/-! ## Tables of a script -/

namespace Environment

theorem sound_tableOf (members : List (String × Value)) : (tableOf members).Sound :=
  List.foldlRecOn members _ Table.sound_empty fun _ ht m _ => ht.set (k := .ofString m.1) trivial m.2

theorem sound_install {h : Heap} (hh : h.Sound) (members : List (String × Value)) : (install h members).2.Sound :=
  hh.addTable (sound_tableOf members)

theorem sound_seeded (seed : Seed) (limit : Nat) : (seeded seed limit).Sound := by
  have hnone : (Heap.withLimit limit).Sound := Heap.sound_of_forall fun t ht => absurd ht (Array.not_mem_empty t)
  exact List.foldlRecOn _ _ hnone fun h hh v _ => hh.evolves (Heap.evolves_addCell h v)

theorem sound_furnished {h : Heap} (hh : h.Sound) : (furnished h).heap.Sound := by
  unfold furnished
  refine Heap.Sound.evolves ?_ (Heap.evolves_addCell _ _)
  -- the metatable of strings is set before these eight, which is no change of any table
  iterate 8 refine sound_install ?_ _
  exact sound_install (sound_install (sound_install hh _) _) _

theorem sound_prepare (seed : Seed) (limit : Nat) : (prepare seed limit).heap.Sound :=
  sound_furnished (sound_seeded seed limit)

end Environment

/-- Each table has its keys where they belong whenever a script is at work. -/
theorem Stage.sound {u : Conditions} {s : SandboxSettings} {script : CompiledScript} {m : Machine Declared}
    (hm : Stage u s script m) (n : Nat) : (m.after (builtins u s) n).heap.Sound := by
  refine Heap.Sound.evolves ?_ (Machine.evolves_after (builtins u s) n m)
  have hstart (chunk : Chunk) : (scriptMachine u s chunk).heap.Sound :=
    (Environment.sound_prepare u.seed s.memoryLimitBytes).evolves (Machine.evolves_start _ chunk (prepared u s).cell)
  cases hm with
  | script hload => exact hstart _
  | @contract chunk results t m hload hrun hresults hexport =>
    exact hrun ▸ (hstart chunk).evolves (Machine.evolves_run _ _ _)

namespace Capability

open Exchange Declaration
open Text (Tidy)

variable {x : Fixtures} {c : Category} {kind : String} {h : Heap} {t u : Nat}

/-! ## Options by name -/

/-- What an option comes to: it is absent, or skipped, or its value is read as it would be on its own. -/
inductive OptionRead (x : Fixtures) (h : Heap) : Value → Option Json → Prop
  | absent : OptionRead x h .nil none
  | skipped {v : Value} (hskipped : isSkipped v = true) : OptionRead x h v none
  | present {v : Value} {j : Json} (hpresent : v.isNil = false) (hkept : isSkipped v = false)
    (hread : ReadsOn x h v j) : OptionRead x h v (some j)

section Names

variable {R : Value → Json → Prop} {named : List (String × Value)} {ms : List (String × Json)}

theorem names_of_forall₂ (hall : List.Forall₂ (fun n m => n.1 = m.1 ∧ R n.2 m.2) named ms) :
    ms.map Prod.fst = named.map Prod.fst := by
  induction hall with
  | nil => rfl
  | cons hfirst _ ih => rw [List.map_cons, List.map_cons, hfirst.1, ih]

/-- What stands under a name, in one list of the same names and in the other. -/
theorem lookup_of_forall₂ (hall : List.Forall₂ (fun n m => n.1 = m.1 ∧ R n.2 m.2) named ms) (q : String) :
    (q ∉ named.map Prod.fst ∧ ms.lookup q = none) ∨
      ∃ v j, (q, v) ∈ named ∧ ms.lookup q = some j ∧ R v j := by
  induction hall with
  | nil => exact .inl ⟨List.not_mem_nil, rfl⟩
  | @cons n m named ms hfirst _ ih =>
    obtain ⟨p, v⟩ := n
    obtain ⟨p', j⟩ := m
    obtain ⟨rfl, hvalue⟩ := hfirst
    rw [Json.lookup_cons_eq]
    by_cases hq : q = p
    · exact .inr ⟨v, j, hq ▸ List.mem_cons_self, if_pos hq, hvalue⟩
    · rw [if_neg hq]
      refine ih.imp (fun hnone => ⟨?_, hnone.2⟩) ?_
      · rw [List.map_cons, List.mem_cons, not_or]
        exact ⟨hq, hnone.1⟩
      · rintro ⟨w, i, hmem, hlookup, hw⟩
        exact ⟨w, i, List.mem_cons_of_mem _ hmem, hlookup, hw⟩

end Names

/-- What is read in turn is read as it would be on its own. -/
theorem readsOn_of_turn {h' : Heap} {named : List (String × Value)} {ms : List (String × Json)}
    (hturn : ReadInTurn (toJson (ε := Declared) x.arrayMeta h.tables.size [t]) t h named ms h') :
    List.Forall₂ (fun n m => n.1 = m.1 ∧ ReadsOn x h n.2 m.2) named ms := by
  refine (hturn.forall₂ (looks_toJson _ _ _)).imp fun n m ⟨hname, g, g', hg, hrun⟩ => ⟨hname, g, g', hg, ?_⟩
  -- the table around it is one more that must not come up again, and leaves one level less
  have hcovers := covers_toJson (ε := Declared) x.arrayMeta (Nat.le_succ h.tables.size) (List.nil_subset [t]) n.2
  refine runs_tableCount.bind ?_
  rw [hg.size]
  exact hcovers hrun

/-- What is read in turn under a name is what the value under it is read as on its own. -/
theorem optionRead_of_turn {h' : Heap} {named : List (String × Value)} {ms : List (String × Json)}
    (hsound : (h.table t).Sound) (hplaces : (h.table t).places ≤ maxElements) (hnamed : Named (h.table t).entries named)
    (hturn : ReadInTurn (toJson (ε := Declared) x.arrayMeta h.tables.size [t]) t h named ms h') (q : String) :
    OptionRead x h ((h.table t).get (.ofString q)) (ms.lookup q) := by
  have hmem (v : Value) : (q, v) ∈ named ↔
      ((h.table t).get (.ofString q) = v ∧ v.isNil = false) ∧ isSkipped v = false := by
    rw [hnamed.mem_iff, Value.ofString, Table.mem_entries_str_iff hsound (size_lt_of_places hplaces)]
  rcases lookup_of_forall₂ (readsOn_of_turn hturn) q with ⟨hnone, hlookup⟩ | ⟨v, j, hv, hlookup, hread⟩
  · rw [hlookup]
    by_cases hnil : ((h.table t).get (.ofString q)).isNil = true
    · rw [eq_nil_of_isNil hnil]
      exact .absent
    · refine .skipped ?_
      by_contra hkept
      exact hnone (List.mem_map.mpr ⟨_, (hmem _).mpr ⟨⟨rfl, by simpa using hnil⟩, by simpa using hkept⟩, rfl⟩)
  · obtain ⟨⟨rfl, hpresent⟩, hkept⟩ := (hmem v).mp hv
    rw [hlookup]
    exact .present hpresent hkept hread

/-- What is read in turn is all that is not skipped: no place of the table has anything else. -/
theorem isSkipped_of_turn {named : List (String × Value)} (hnamed : Named (h.table t).entries named) (i : Int64) :
    (h.table t).getInt i = .nil ∨ isSkipped ((h.table t).getInt i) = true := by
  by_cases hnil : ((h.table t).getInt i).isNil = true
  · exact .inl (eq_nil_of_isNil hnil)
  · exact .inr (hnamed.isLeftOut (Table.mem_entries_int (by simpa using hnil)) nofun)

/-! ## Calls of builders -/

-- what a text is brought to is of no matter below, and takes long to unfold
attribute [local irreducible] normalized

/-- A call of a builder that answers has read its options, then its key, and declares a field with both. -/
theorem of_build {calls : Callees} {key : Value} (hkey : key ≠ .nil) {rest vs : List Value} {h' : Heap}
    {es : List Declared} (hrun : (build x c kind (key :: .table t :: rest)).RunsWith calls h vs h' es) :
    ∃ options k g g' f, (Exchange.read x.arrayMeta (.table t) : Declaring Json).Runs h options g [] ∧
      (Exchange.read x.arrayMeta key : Declaring Json).Runs g k g' [] ∧
      normalize? (declaration (some k) options) c kind = some f ∧ es = [.field c f] := by
  unfold build at hrun
  obtain ⟨options, g, _, _, hoptions, hkeyed, rfl⟩ := runs_bind_iff.mp hrun
  obtain ⟨-, rfl⟩ := (looks_read _ _).of_runs hoptions
  split at hkeyed
  · rename_i hnil
    exact absurd hnil hkey
  · obtain ⟨key?, _, _, _, hread, hdeclares, rfl⟩ := runs_bind_iff.mp hkeyed
    obtain ⟨k, _, _, _, hk, hdone, rfl⟩ := runs_bind_iff.mp hread
    obtain ⟨rfl, rfl, rfl⟩ := runs_done_iff.mp hdone
    obtain ⟨-, rfl⟩ := (looks_read _ _).of_runs hk
    obtain ⟨f, _, _, _, hbrought, hshow, rfl⟩ := runs_bind_iff.mp hdeclares
    obtain ⟨hf, rfl, rfl⟩ := runs_normalized_iff.mp hbrought
    obtain ⟨shown, _, _, _, hmade, hemit, rfl⟩ := runs_bind_iff.mp hshow
    obtain rfl := List.eq_nil_iff_forall_not_mem.mpr ((emits_ofField (P := noEffect) _ _).of_runs hmade).2
    obtain ⟨fs, rfl, hemitted⟩ := runs_emit_iff.mp hemit
    obtain ⟨-, -, rfl⟩ := runs_done_iff.mp hemitted
    exact ⟨options, k, g, _, f, (looks_read _ _).runs hoptions, (looks_read _ _).runs hk, hf, rfl⟩

theorem get?_declaration_eq (k options : Json) (q : String) :
    (declaration (some k) options).get? q = if q = "key" then some k else options.get? q := by
  rw [declaration, Json.get?, Json.lookup_insertMember]
  congr 1
  cases options <;> rfl

/-- What a builder declares a field with, given its key and a table of options. -/
structure DeclaredWith (x : Fixtures) (h : Heap) (key : Value) (t : Nat) (raw : Json) : Prop where
  key : ∃ k, ReadsOn x h key k ∧ raw.get? "key" = some k
  named : ¬TakenForArray x.arrayMeta h t → ∀ q, q ≠ "key" → OptionRead x h ((h.table t).get (.ofString q)) (raw.get? q)
  positional : ¬TakenForArray x.arrayMeta h t →
    ∀ i, (h.table t).getInt i = .nil ∨ isSkipped ((h.table t).getInt i) = true
  lost : TakenForArray x.arrayMeta h t → ∀ q, q ≠ "key" → raw.get? q = none

theorem declaredWith_of_build {calls : Callees} {key : Value} (hkey : key ≠ .nil) (hsound : (h.table t).Sound)
    (hplaces : (h.table t).places ≤ maxElements) {rest vs : List Value} {h' : Heap} {es : List Declared}
    (hrun : (build x c kind (key :: .table t :: rest)).RunsWith calls h vs h' es) :
    ∃ raw f, es = [.field c f] ∧ normalize? raw c kind = some f ∧ DeclaredWith x h key t raw := by
  obtain ⟨options, k, g, g', f, hoptions, hk, hf, rfl⟩ := of_build hkey hrun
  have hraw := get?_declaration_eq k options
  have hread : ∃ k', ReadsOn x h key k' ∧ (declaration (some k) options).get? "key" = some k' :=
    ⟨k, ⟨g, g', ((looks_read _ _).of_runs hoptions).1, hk⟩, (hraw "key").trans (if_pos rfl)⟩
  refine ⟨_, f, rfl, hf, ?_⟩
  rcases of_read_table hsound hplaces hoptions with ⟨htaken, js, rfl⟩ | ⟨hobject, named, ms, hnamed, -, hturn, rfl⟩
  · refine ⟨hread, fun hobject => absurd htaken hobject, fun hobject => absurd htaken hobject, fun _ q hq => ?_⟩
    rw [hraw, if_neg hq]
    rfl
  · refine ⟨hread, fun _ q hq => ?_, fun _ => isSkipped_of_turn hnamed, fun htaken => absurd htaken hobject⟩
    rw [hraw, if_neg hq, Json.lookup_ofMembers (names_of_forall₂ (readsOn_of_turn hturn) ▸ hnamed.nodup)]
    exact optionRead_of_turn hsound hplaces hnamed hturn q

/-- With tables that have the same under every name, and are both taken for arrays or both not, the same is
declared. -/
theorem same_declared {calls calls' : Callees} {key : Value} (hkey : key ≠ .nil) (hscalar : ∀ s, key ≠ .table s)
    (hsound : h.Sound) (ht : (h.table t).places ≤ maxElements) (hu : (h.table u).places ≤ maxElements)
    (hsame : ∀ q, (h.table t).get (.ofString q) = (h.table u).get (.ofString q))
    (htaken : TakenForArray x.arrayMeta h t ↔ TakenForArray x.arrayMeta h u) {rest rest' vs ws : List Value}
    {h' g' : Heap} {es fs : List Declared}
    (hrun : (build x c kind (key :: .table t :: rest)).RunsWith calls h vs h' es)
    (hrun' : (build x c kind (key :: .table u :: rest')).RunsWith calls' h ws g' fs) : es = fs := by
  obtain ⟨options, k, _, _, f, hoptions, hk, hf, rfl⟩ := of_build hkey hrun
  obtain ⟨options', k', _, _, f', hoptions', hk', hf', rfl⟩ := of_build hkey hrun'
  obtain rfl := read_scalar hscalar hk hk'
  suffices hobjects : asObject options = asObject options' by
    rw [declaration, hobjects] at hf
    rw [Option.some.inj (hf.symm.trans hf')]
  rcases of_read_table (hsound t) ht hoptions with ⟨htable, js, rfl⟩ | ⟨hobject, named, ms, hnamed, hnew, hturn, rfl⟩
  · rcases of_read_table (hsound u) hu hoptions' with ⟨-, js', rfl⟩ | ⟨hobject', -⟩
    · rfl
    · exact absurd (htaken.mp htable) hobject'
  · rcases of_read_table (hsound u) hu hoptions' with ⟨htable', -⟩ | ⟨-, named', ms', hnamed', hnew', hturn', rfl⟩
    · exact absurd (htaken.mpr htable') hobject
    · obtain rfl := Named.unique (hsound t) (size_lt_of_places ht) (hsound u) (size_lt_of_places hu) hsame hnamed
        hnamed'
      -- neither table is read inside itself, and the values are the same: so neither comes up in either
      have hbeside : ∀ n ∈ named, Beside (fun s => s = t ∨ s = u) n.2 := fun n hn s hs hapart =>
        hapart.elim (hnew n hn s hs) (hnew' n hn s hs)
      have halike (v : Value) (hv : Beside (fun s => s = t ∨ s = u) v) :
          Alike (fun s => s = t ∨ s = u) (toJson x.arrayMeta h.tables.size [t] v : Declaring Json)
            (toJson x.arrayMeta h.tables.size [u] v) :=
        alike_toJson (fun s hs => hs.imp List.mem_singleton.mpr List.mem_singleton.mpr) _ _ hv
      obtain ⟨rfl, -⟩ := ReadInTurn.alike halike (.inl rfl) (.inr rfl) hbeside hturn hturn' (.refl _ h)
      rfl

/-! ## Options that can be read -/

/-- Options that can all be read: each is skipped, or shows JSON under a name, through other tables than this. -/
structure Presentable (x : Fixtures) (h : Heap) (t : Nat) : Prop where
  inUse : t < h.tables.size
  object : ¬TakenForArray x.arrayMeta h t
  entry : ∀ k v, (k, v) ∈ (h.table t).entries → (isSkipped v = true ∧ k ≠ .table t) ∨
    ∃ q j, k = .ofString q ∧ Shows x.arrayMeta h (fun u => u < h.tables.size ∧ u ≠ t) v j ∧ j.Ordered

theorem Presentable.exists_kept (hp : Presentable x h t) (hsound : (h.table t).Sound)
    (hplaces : (h.table t).places ≤ maxElements) (q : String) :
    ∃ kept? : Option Json, ∀ v, (.ofString q, v) ∈ (h.table t).entries →
      ReadsAs (toJson (ε := Declared) x.arrayMeta h.tables.size [t]) [t] h v kept? := by
  have hvalue {v : Value} (hv : (.ofString q, v) ∈ (h.table t).entries) :=
    Table.hasEntry_of_mem hsound (size_lt_of_places hplaces) hv
  by_cases hmem : ∃ v, (.ofString q, v) ∈ (h.table t).entries
  · obtain ⟨v, hv⟩ := hmem
    suffices hread : ∃ kept?, ReadsAs (toJson (ε := Declared) x.arrayMeta h.tables.size [t]) [t] h v kept? by
      obtain ⟨kept?, hread⟩ := hread
      refine ⟨kept?, fun w hw => ?_⟩
      obtain rfl : v = w := (hvalue hv).get.symm.trans (hvalue hw).get
      exact hread
    rcases hp.entry _ v hv with ⟨hskipped, -⟩ | ⟨_, j, -, hshows, hj⟩
    · refine ⟨none, (hvalue hv).present, fun s hs => ?_, hskipped, nofun⟩
      rw [hs] at hskipped
      cases hskipped
    · have hlevels := (Levels.start h).deeper hp.inUse List.not_mem_nil
      exact ⟨j.kept?, hshows.readsAs (fun s hs => by simpa using hs.2) fun g hg =>
        runs_toJson hshows hj (fun s hs => ⟨hs.1, by simpa using hs.2⟩) hlevels hg⟩
  · exact ⟨none, fun v hv => absurd ⟨v, hv⟩ hmem⟩

theorem Presentable.exists_read (hp : Presentable x h t) (hsound : (h.table t).Sound)
    (hplaces : (h.table t).places ≤ maxElements) :
    ∃ options g, (Exchange.read x.arrayMeta (.table t) : Declaring Json).Runs h options g [] := by
  choose kept hkept using hp.exists_kept hsound hplaces
  have hentries : ∀ e ∈ (h.table t).entries,
      EntryReads (toJson (ε := Declared) x.arrayMeta h.tables.size [t]) [t] h kept e := by
    rintro ⟨k, v⟩ he
    by_cases hname : ∃ q, k = .ofString q
    · obtain ⟨q, rfl⟩ := hname
      exact .named (hkept q v he)
    · rcases hp.entry k v he with ⟨hskipped, hk⟩ | ⟨q, _, hq, -⟩
      · refine .leftOut (fun q hq => hname ⟨q, hq⟩) (fun s hs => ?_) (fun s hs => ?_) (.inr hskipped)
        · rw [List.mem_singleton]
          rintro rfl
          exact hk hs
        · rw [hs] at hskipped
          cases hskipped
      · exact absurd ⟨q, hq⟩ hname
  obtain ⟨b, g, hisArray⟩ := exists_isArray (ε := Declared) x.arrayMeta t h
  obtain rfl : b = false := by simpa [hp.object] using (of_isArray hisArray).1
  obtain ⟨ms, g', hrun, -⟩ := runs_object ⟨g, hisArray⟩ hsound (size_lt_of_places hplaces)
    ((Table.length_entries_le _).trans hplaces) hentries (.refl h)
  exact ⟨.obj ms, g', runs_tableCount.bind hrun⟩

/-- A text that is more than blanks is a key whatever it is declared with. -/
theorem exists_field {k : String} (hk : Text.blank k = false) (options : Json) (c : Category) (kind : String) :
    ∃ d, normalize? (declaration (some (.str k)) options) c kind = some d := by
  refine Option.ne_none_iff_exists'.mp fun hnone => ?_
  have hkey : (declaration (some (.str k)) options).getD "key" = .str k := by
    rw [Json.getD, get?_declaration_eq, if_pos rfl, Option.getD_some]
  have hpresent : (declaration (some (.str k)) options).getD "key" ≠ .null := by
    rw [hkey]
    intro h
    cases h
  have hchosen : Chosen (declaration (some (.str k)) options) ["key", "id"] (.str k) := by
    have hfirst : Chosen (declaration (some (.str k)) options) ["key", "id"] _ := .here hpresent
    rwa [hkey] at hfirst
  have hempty := (key_eq_empty_iff _).mpr ((normalize?_eq_none_iff _ _ _).mp hnone)
  rw [key_of_chosen hchosen rfl, Text.trim_eq_empty_iff, hk] at hempty
  cases hempty

/-! ## What positional entries have to do with it -/

/-- A builder that answers to a key and a table of options declares a field with the key and with each option as its
value is read, unless the table is taken for an array: then with the key alone. A table that has a value in its first
place is always taken for one, one without positional entries only if it is marked as one. So tables that have the same
under every name declare the same, if both are taken for arrays or both are not. And there is an answer to a text that
is more than blanks and any options that can be read. -/
theorem named_options_declared (x : Fixtures) (c : Category) (kind : String) {h : Heap} (hsound : h.Sound) {key : Value}
    (hkey : key ≠ .nil) {t : Nat} (hplaces : (h.table t).places ≤ maxElements) :
    (∀ calls rest vs h' es, (build x c kind (key :: .table t :: rest)).RunsWith calls h vs h' es →
      ∃ raw f, es = [.field c f] ∧ normalize? raw c kind = some f ∧ DeclaredWith x h key t raw) ∧
    ((h.table t).limit ≤ (h.table t).dense.size → 0 < (h.table t).dense.size →
      ((h.table t).get (.int 1)).isNil = false → TakenForArray x.arrayMeta h t) ∧
    ((∀ i, (h.table t).getInt i = .nil) → (h.table t).meta? ≠ some x.arrayMeta → ¬TakenForArray x.arrayMeta h t) ∧
    (∀ u, (h.table u).places ≤ maxElements → (∀ s, key ≠ .table s) →
      (∀ q, (h.table t).get (.ofString q) = (h.table u).get (.ofString q)) →
      (TakenForArray x.arrayMeta h t ↔ TakenForArray x.arrayMeta h u) →
      ∀ calls calls' rest rest' vs ws h' g' es fs,
        (build x c kind (key :: .table t :: rest)).RunsWith calls h vs h' es →
        (build x c kind (key :: .table u :: rest')).RunsWith calls' h ws g' fs → es = fs) ∧
    (h.Orderly → Tidy kind → ∀ k, key = .ofString k → Text.blank k = false → Presentable x h t →
      ∀ rest, ∃ v h' f, (build x c kind (key :: .table t :: rest)).Runs h [v] h' [.field c f]) := by
  refine ⟨fun calls rest vs h' es hrun => declaredWith_of_build hkey (hsound t) hplaces hrun, ?_,
    fun hnone hmeta => not_takenForArray hmeta hnone, ?_, ?_⟩
  · exact takenForArray_of_first x.arrayMeta ((Nat.le_add_right _ _).trans_lt (hplaces.trans_lt maxElements_lt))
  · intro u hplaces' hscalar hsame htaken calls calls' rest rest' vs ws h' g' es fs hrun hrun'
    exact same_declared hkey hscalar hsound hplaces hplaces' hsame htaken hrun hrun'
  · rintro ho hkind k rfl hk hp rest
    obtain ⟨options, g, hread⟩ := hp.exists_read (hsound t) hplaces
    obtain ⟨f, hf⟩ := exists_field hk options c kind
    obtain ⟨v, h', hrun⟩ := runs_build hkind ho hread hf rest
    exact ⟨v, h', f, hrun⟩

def windowLabel : KeyMap := ({} : KeyMap).insert (.ofString "label") (.ofString "Window")

/-- Two tables of options that both have a label, the second beside a value in its first place. -/
def windowOptions : Heap where
  tables := #[{}, { other := windowLabel, capacity := 1 },
    { dense := #[.int 5], limit := 1, other := windowLabel, capacity := 1 }]

theorem toList_windowOptions {t : Nat} (ht : t = 1 ∨ t = 2) :
    (windowOptions.table t).other.toList = [(.ofString "label", .ofString "Window")] := by
  rcases ht with rfl | rfl <;> rfl

theorem sound_windowOptions : windowOptions.Sound := by
  have hlabel (t : Nat) (ht : t = 1 ∨ t = 2) : (windowOptions.table t).Sound :=
    Table.sound_of_strings (by simp [toList_windowOptions ht, Value.ofString])
  refine Heap.sound_of_forall fun t ht => ?_
  simp only [windowOptions, List.mem_toArray, List.mem_cons, List.not_mem_nil, or_false] at ht
  rcases ht with rfl | rfl | rfl
  · exact Table.sound_empty
  · exact hlabel 1 (.inl rfl)
  · exact hlabel 2 (.inr rfl)

theorem presentable_windowOptions : Presentable ⟨0, 0⟩ windowOptions 1 where
  inUse := by decide
  object := not_takenForArray nofun
    (Table.getInt_of_no_integers rfl (by simp [toList_windowOptions (.inl rfl), Value.ofString]))
  entry k v hmem := by
    have hlist := toList_windowOptions (t := 1) (.inl rfl)
    have hvalues : ∀ e ∈ (windowOptions.table 1).other.toList, e.2.isNil = false := by
      simp [hlist, Value.isNil, Value.ofString]
    have hentries := Table.entries_eq_toList rfl hvalues
    rw [hentries, hlist, List.mem_singleton] at hmem
    obtain ⟨rfl, rfl⟩ := Prod.mk.inj hmem
    exact .inr ⟨"label", .str "Window", rfl, .str "Window", .str "Window"⟩

/-- The label is declared with where it stands alone. -/
theorem label_declared_alone :
    windowOptions.Sound ∧ Value.ofString "window" ≠ .nil ∧ (windowOptions.table 1).places ≤ maxElements ∧
    ∃ v h' raw f,
      (build ⟨0, 0⟩ .parameter "number" [.ofString "window", .table 1]).Runs windowOptions [v] h'
        [.field .parameter f] ∧
      normalize? raw .parameter "number" = some f ∧ DeclaredWith ⟨0, 0⟩ windowOptions (.ofString "window") 1 raw := by
  have hkey : Value.ofString "window" ≠ .nil := nofun
  have hplaces : (windowOptions.table 1).places ≤ maxElements := by decide
  have ho : windowOptions.Orderly := ⟨List.nodup_nil, by simp [windowOptions]⟩
  have htheorem := named_options_declared ⟨0, 0⟩ .parameter "number" sound_windowOptions hkey hplaces
  obtain ⟨v, h', f, hrun⟩ :=
    htheorem.2.2.2.2 ho (by decide) "window" rfl (by decide) presentable_windowOptions []
  obtain ⟨raw, g, heq, hf, hdeclared⟩ := htheorem.1 _ _ _ _ _ hrun
  obtain ⟨-, rfl⟩ := Declared.field.inj (List.cons.inj heq).1
  exact ⟨sound_windowOptions, hkey, hplaces, v, h', raw, f, hrun, hf, hdeclared⟩

theorem get_windowOptions {t : Nat} (ht : t = 1 ∨ t = 2) (q : String) :
    (windowOptions.table t).get (.ofString q) = if q = "label" then .ofString "Window" else .nil := by
  have hget : (windowOptions.table t).get (.ofString q) =
      ((({} : KeyMap).insert (.ofString "label") (.ofString "Window")).get? (.ofString q)).getD .nil := by
    rcases ht with rfl | rfl <;> rfl
  rw [hget, get?_insert_ofString]
  split <;> rfl

theorem runs_read_labelAlone :
    ∃ raw g, (Exchange.read 0 (.table 1) : Declaring Json).Runs windowOptions raw g [] ∧
      ∀ q, raw.get? q = if q = "label" then some (.str "Window") else none := by
  have hlabel (q : String) (j : Json) : [("label", j)].lookup q = if q = "label" then some j else none :=
    Json.lookup_cons_eq "label" j [] q
  have hother (q : String) : (windowOptions.table 1).other.get? (.ofString q) =
      if q = "label" then some (.ofString "Window") else none := get?_insert_ofString {} "label" q _
  have hshows : Shows 0 windowOptions (· < 3) (.table 1) (.obj [("label", .str "Window")]) := by
    refine .obj (by decide) rfl rfl (by decide) (by simp [toList_windowOptions (.inl rfl)]) (fun q => ?_)
      fun q v j hv hj => ?_
    · rw [hother, hlabel]
      split <;> rfl
    · rw [hother] at hv
      rw [hlabel] at hj
      split at hv
      · rename_i hq
        rw [if_pos hq] at hj
        obtain rfl := Option.some.inj hv
        obtain rfl := Option.some.inj hj
        exact .str "Window"
      · cases hv
  obtain ⟨raw, g, hread, hraw⟩ := runs_read_members (ε := Declared) hshows (by simpa using Json.Ordered.str "Window")
    (List.nodup_singleton _) (fun u hu => hu) (.refl windowOptions)
  refine ⟨raw, g, hread, fun q => ?_⟩
  rw [hraw, hlabel]
  split <;> rfl

theorem runs_read_labelBesideFive :
    ∃ g, (Exchange.read 0 (.table 2) : Declaring Json).Runs windowOptions (.arr [.int 5]) g [] := by
  have hlists : Lists windowOptions 2 0 [.int 5] := {
    few := by decide
    value i hi := by
      obtain rfl : i = 0 := by simpa using hi
      rfl
    present := by simp [Value.isNil]
    last := rfl }
  have hreads : List.Forall₂ (ReadsAs (ε := Declared) (toJson 0 3 [2]) [2] windowOptions) [.int 5] [some (.int 5)] := by
    refine .cons ⟨rfl, fun s hs => (by cases hs), rfl, fun j hj g _ => ?_⟩ .nil
    obtain rfl := Option.some.inj hj
    exact ⟨g, runs_done⟩
  obtain ⟨b, g, hisArray⟩ := exists_isArray (ε := Declared) 0 2 windowOptions
  have htaken : TakenForArray 0 windowOptions 2 :=
    takenForArray_of_first 0 (by decide) (by decide) (by decide) rfl
  obtain rfl : b = true := (of_isArray hisArray).1.mpr htaken
  obtain ⟨g', hrun⟩ := runs_array ⟨g, hisArray⟩ hreads hlists (.refl windowOptions)
  exact ⟨g', runs_tableCount.bind hrun⟩

/-- Beside a value in the first place the same label is lost. -/
theorem positional_entry_loses_label :
    ∃ v w h' g' d e,
      (∀ q, (windowOptions.table 1).get (.ofString q) = (windowOptions.table 2).get (.ofString q)) ∧
      (build ⟨0, 0⟩ .parameter "number" [.ofString "window", .table 1]).Runs windowOptions [v] h'
        [.field .parameter d] ∧
      d.label = "Window" ∧
      (build ⟨0, 0⟩ .parameter "number" [.ofString "window", .table 2]).Runs windowOptions [w] g'
        [.field .parameter e] ∧
      e.label = "window" := by
  have ho : windowOptions.Orderly := ⟨List.nodup_nil, by simp [windowOptions]⟩
  obtain ⟨raw, g, hread, hraw⟩ := runs_read_labelAlone
  obtain ⟨g₂, hread₂⟩ := runs_read_labelBesideFive
  have hnamed : normalize? (declaration (some (.str "window")) raw) .parameter "number" =
      normalize? (.obj [("key", .str "window"), ("label", .str "Window")]) .parameter "number" := by
    refine normalize_congr (fun q => ?_) _ _
    rw [get?_declaration_eq, hraw, Json.get?, Json.lookup_cons_eq, Json.lookup_cons_eq]
    rfl
  have hlabel : (normalize? (.obj [("key", .str "window"), ("label", .str "Window")]) .parameter "number").map
      Field.label = some "Window" := by decide
  have hkey : (normalize? (declaration (some (.str "window")) (.arr [.int 5])) .parameter "number").map Field.label =
      some "window" := by decide
  obtain ⟨d, hd, hdlabel⟩ := Option.map_eq_some_iff.mp hlabel
  obtain ⟨e, he, helabel⟩ := Option.map_eq_some_iff.mp hkey
  obtain ⟨v, h', hrun⟩ := runs_build (x := ⟨0, 0⟩) (by decide) ho hread (hnamed.trans hd) []
  obtain ⟨w, g', hrun₂⟩ := runs_build (x := ⟨0, 0⟩) (by decide) ho hread₂ he []
  refine ⟨v, w, h', g', d, e, fun q => ?_, hrun, hdlabel, hrun₂, helabel⟩
  rw [get_windowOptions (.inl rfl), get_windowOptions (.inr rfl)]

/-! ## Calls by a script -/

/-- A script has called a builder with a key and a table of options, and the call answers if it is left alone. Then
the machine gets to that answer, and the field that has been declared by then has the key and each option as its value
is read, or the key alone if the table is taken for an array; unless memory runs out. -/
theorem call_of_builder_declares_options {u : Conditions} {s : SandboxSettings} {script : CompiledScript}
    {m : Machine Declared} (hm : Stage u s script m) {n : Nat} {key : Value} (hkey : key ≠ .nil)
    (hplaces : ((m.after (builtins u s) n).heap.table t).places ≤ maxElements) {p : Purpose} {rest vs : List Value}
    {h' : Heap} {waiting : List (Waiting Declared)} {effects es : List Declared}
    (hcall : (m.after (builtins u s) n).At p (build (prepared u s).fixtures c kind (key :: .table t :: rest))
      (m.after (builtins u s) n).heap waiting effects)
    (hrun : (build (prepared u s).fixtures c kind (key :: .table t :: rest)).Runs (m.after (builtins u s) n).heap vs h'
      es) :
    ∃ k, (m.after (builtins u s) k).OutOfMemory ∨ ∃ raw f,
      (m.after (builtins u s) k).At p (.done vs) h' waiting (.field c f :: effects) ∧ normalize? raw c kind = some f ∧
        DeclaredWith (prepared u s).fixtures (m.after (builtins u s) n).heap key t raw := by
  obtain ⟨raw, f, rfl, hf, hdeclared⟩ := declaredWith_of_build hkey (hm.sound n t) hplaces hrun
  obtain ⟨k, hk⟩ := Machine.after_runOn (builtins u s) hcall hrun
  refine ⟨n + k, ?_⟩
  rw [Machine.after_add]
  exact hk.imp_right fun hat => ⟨raw, f, hat, hf, hdeclared⟩

end Capability
end StrategyBench.Sandbox

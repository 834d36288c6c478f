/-
StrategyBench.Proofs.Sandbox.DeclaringCalls — what one call of a builder, or of `define_strategy`, declares.

A call that answers declares once, and that is the last thing it does: nothing can go wrong after it
(`emitsLast_run`). What it declares is read off its arguments (`declares_of_ends`). A builder reads its options
and its key as they are when it is called, since it calls nothing. To find the lists of a strategy functions of
the script may be called, which may come to anything and leave any heap; each list is read, entry by entry up to
the first nil, on the heap that is there when it is found.
-/

import StrategyBench.Proofs.Lua.Outcomes
import StrategyBench.Proofs.Sandbox.Redeclaration

namespace StrategyBench.Lua.Program

variable {ε α β : Type}

/-! ## Programs that emit last -/

/-- A program that answers only right after it has emitted, and emits only then. -/
def EmitsLast : Program ε α → Prop
  | done _ => False
  | fail _ => True
  | heap _ next => ∀ v, (next v).EmitsLast
  | call _ _ next => ∀ vs, (next vs).EmitsLast
  | emit _ next => ∃ a, next () = done a

theorem EmitsLast.bind {p : Program ε α} {f : α → Program ε β} (hp : p.Emits noEffect)
    (hf : ∀ a, (f a).EmitsLast) : (p >>= f).EmitsLast := by
  induction p with
  | done a => exact hf a
  | fail r => trivial
  | heap op next ih => exact fun v => ih v (hp v)
  | call g args next ih => exact fun vs => ih vs (hp vs)
  | emit e next => exact hp.1.elim

/-- What only looks comes to an answer without any call. -/
theorem Looks.runs_of_ends {calls : Calls} {p : Program ε α} (hp : p.Looks) {h h' : Heap} {a : α} {es : List ε}
    (hend : p.Ends calls h (.ok a) h' es) : p.Runs h a h' es := by
  induction p generalizing h with
  | done b =>
    obtain ⟨heq, rfl, rfl⟩ := ends_done_iff.mp hend
    cases heq
    exact runs_done
  | fail e => exact nomatch (ends_fail_iff.mp hend).1
  | heap op next ih =>
    cases hend with
    | heap hallowed hnext => exact runs_heap_iff.mpr ⟨hallowed, ih _ (hp.2 _) hnext⟩
  | call f args next => exact hp.elim
  | emit e next => exact hp.elim

theorem Looks.emits {p : Program ε α} (hp : p.Looks) {P : ε → Prop} : p.Emits P := by
  induction p with
  | done a => trivial
  | fail e => trivial
  | heap op next ih => exact fun v => ih v (hp.2 v)
  | call f args next => exact hp.elim
  | emit e next => exact hp.elim

end StrategyBench.Lua.Program

namespace StrategyBench.Sandbox.Capability

open Lua Program Exchange Declaration

/-! ## What is read -/

/-- A value is read as JSON on a heap, wherever borders were last seen in its tables. -/
def ReadsOn (x : Fixtures) (h : Heap) (v : Value) (j : Json) : Prop :=
  ∃ g g', h.Similar g ∧ (Exchange.read x.arrayMeta v : Declaring Json).Runs g j g' []

/-- The options that an argument of a builder stands for. -/
inductive OptionsOf (x : Fixtures) (h : Heap) : Value → Json → Prop
  | table {t : Nat} {j : Json} (hread : ReadsOn x h (.table t) j) : OptionsOf x h (.table t) j
  | other {v : Value} (hother : ∀ t, v ≠ .table t) : OptionsOf x h v .null

/-- The key that an argument of a builder stands for. -/
inductive KeyOf (x : Fixtures) (h : Heap) : Value → Option Json → Prop
  | absent : KeyOf x h .nil none
  | present {v : Value} {j : Json} (hpresent : v ≠ .nil) (hread : ReadsOn x h v j) : KeyOf x h v (some j)

/-- The values of a table from place `k` on, one after the other up to the first nil, of at most `n`. -/
structure Sequence (h : Heap) (t k n : Nat) (vs : List Value) : Prop where
  few : vs.length ≤ n
  value : ∀ i (hi : i < vs.length), (h.table t).get (.int (Int64.ofNat (k + i + 1))) = vs[i]
  present : ∀ v ∈ vs, v.isNil = false
  last : vs.length < n → (h.table t).get (.int (Int64.ofNat (k + vs.length + 1))) = .nil

/-- What a value is brought to as an entry of the list of a category. -/
def EntryOf (x : Fixtures) (h : Heap) (c : Category) (kind : String) (v : Value) (f : Field) : Prop :=
  ∃ raw, ReadsOn x h v raw ∧ normalize? raw c kind = some f

/-- What is found for the list of a category in the table of a strategy, and the heap that is left. -/
inductive ListOf (x : Fixtures) (t : Nat) (c : Category) (h : Heap) : Option (List Field) → Heap → Prop
  | absent {g : Heap}
    (hfound : (Operation.index (.table t) (.ofString c.plural) : Declaring Value).Ends anyCalls h (.ok .nil) g []) :
    ListOf x t c h none g
  /-- No script has more than `maxElements` values in a table. -/
  | present {l : Nat} {vs : List Value} {fs : List Field} {g g' : Heap}
    (hfound : (Operation.index (.table t) (.ofString c.plural) : Declaring Value).Ends anyCalls h (.ok (.table l)) g [])
    (hvs : Sequence g l 0 maxElements vs) (hentries : List.Forall₂ (EntryOf x g c (entryKind c)) vs fs)
    (hsimilar : g.Similar g') : ListOf x t c h (some fs) g'

/-- What a call with some arguments declares, on the heap that it meets. -/
inductive Declares (x : Fixtures) : Capability → List Value → Heap → Declared → Prop
  | field {c : Category} {kind : String} {args : List Value} {h : Heap} {options : Json} {key : Option Json} {f : Field}
    (hoptions : OptionsOf x h (args.getD 1 .nil) options) (hkey : KeyOf x h (args.getD 0 .nil) key)
    (hf : normalize? (declaration key options) c kind = some f) : Declares x (builder c kind) args h (.field c f)
  | strategy {args : List Value} {h g g' : Heap} {t : Nat} {parameters factors : Option (List Field)}
    (htable : args.getD 0 .nil = .table t) (hparameters : ListOf x t .parameter h parameters g)
    (hfactors : ListOf x t .factor g factors g') :
    Declares x defineStrategy args h (.strategy (args.getD 0 .nil) parameters factors)
  | value {args : List Value} {h : Heap} (hvalue : ∀ t, args.getD 0 .nil ≠ .table t) :
    Declares x defineStrategy args h (.strategy (args.getD 0 .nil) none none)

/-- The capabilities that declare. -/
def declares : Capability → Bool
  | builder _ _ | defineStrategy => true
  | _ => false

variable {x : Fixtures} {h h' : Heap} {v : Value} {es : List Declared}

/-- What is read where the tables are the same. -/
theorem ReadsOn.earlier {g : Heap} {j : Json} (hread : ReadsOn x g v j) (hg : h.Similar g) : ReadsOn x h v j := by
  obtain ⟨k, k', hk, hrun⟩ := hread
  exact ⟨k, k', hg.trans hk, hrun⟩

theorem ends_read {calls : Calls} {j : Json}
    (hend : (Exchange.read x.arrayMeta v : Declaring Json).Ends calls h (.ok j) h' es) :
    ReadsOn x h v j ∧ h.Similar h' ∧ es = [] := by
  have hrun := (looks_read _ _).runs_of_ends hend
  obtain ⟨hsimilar, rfl⟩ := (looks_read _ _).of_runs hrun
  exact ⟨⟨h, h', .refl h, hrun⟩, hsimilar, rfl⟩

-- what a text is brought to is of no matter below, and takes long to unfold
attribute [local irreducible] normalized

theorem ends_normalized {calls : Calls} {raw : Json} {c : Category} {kind : String} {f : Field}
    (hend : (normalized raw c kind).Ends calls h (.ok f) h' es) : normalize? raw c kind = some f ∧ h' = h ∧ es = [] :=
  runs_normalized_iff.mp ((looks_normalized raw c kind).runs_of_ends hend)

/-! ## Builders -/

theorem declares_of_build {calls : Calls} {c : Category} {kind : String} {args vs : List Value}
    (hend : (build x c kind args).Ends calls h (.ok vs) h' es) :
    ∃ d, es = [d] ∧ Declares x (builder c kind) args h d := by
  unfold build at hend
  extract_lets reads at hend
  have hreads {options : Json} (hoptions : OptionsOf x h (args.getD 1 .nil) options) {g : Heap} (hg : h.Similar g)
      {es : List Declared} (hend : (reads options).Ends calls g (.ok vs) h' es) :
      ∃ d, es = [d] ∧ Declares x (builder c kind) args h d := by
    unfold reads at hend
    extract_lets declared at hend
    have hdeclared {key : Option Json} (hkey : KeyOf x h (args.getD 0 .nil) key) {g : Heap} {es : List Declared}
        (hend : (declared key).Ends calls g (.ok vs) h' es) :
        ∃ d, es = [d] ∧ Declares x (builder c kind) args h d := by
      obtain ⟨f, _, _, _, hbrought, hshow, rfl⟩ := ends_bind_ok_iff.mp hend
      obtain ⟨hf, rfl, rfl⟩ := ends_normalized hbrought
      obtain ⟨shown, _, fs, _, hmade, hemit, rfl⟩ := ends_bind_ok_iff.mp hshow
      obtain rfl := (emits_ofField _ _).effects_of_ends hmade
      cases hemit with
      | emit hdone =>
        obtain ⟨-, -, rfl⟩ := ends_done_iff.mp hdone
        exact ⟨_, rfl, .field hoptions hkey hf⟩
    split at hend
    · rename_i hnil
      have hkey : KeyOf x h (args.getD 0 .nil) none := by
        rw [hnil]
        exact .absent
      exact hdeclared hkey hend
    · rename_i hpresent
      obtain ⟨key, _, _, _, hkey, hrest, rfl⟩ := ends_bind_ok_iff.mp hend
      obtain ⟨k, _, _, _, hk, hdone, rfl⟩ := ends_bind_ok_iff.mp hkey
      obtain ⟨heq, rfl, rfl⟩ := ends_done_iff.mp hdone
      cases heq
      obtain ⟨hread, -, rfl⟩ := ends_read hk
      exact hdeclared (.present hpresent (hread.earlier hg)) hrest
  split at hend
  · rename_i t htable
    obtain ⟨options, _, _, _, hoptions, hrest, rfl⟩ := ends_bind_ok_iff.mp hend
    obtain ⟨hread, hsimilar, rfl⟩ := ends_read hoptions
    exact hreads (htable ▸ .table hread) hsimilar hrest
  · rename_i hother
    exact hreads (.other hother) (.refl h) hend

/-! ## Strategies -/

theorem Sequence.cons {t k n : Nat} {vs : List Value} (hfirst : (h.table t).get (.int (Int64.ofNat (k + 1))) = v)
    (hpresent : v.isNil = false) (hvs : Sequence h t (k + 1) n vs) : Sequence h t k (n + 1) (v :: vs) where
  few := Nat.succ_le_succ hvs.few
  value i hi := by
    cases i with
    | zero => exact hfirst
    | succ i =>
      have hlater := hvs.value i (by simpa using hi)
      rwa [Nat.add_right_comm k] at hlater
  present := List.forall_mem_cons.mpr ⟨hpresent, hvs.present⟩
  last hlast := by
    have hend := hvs.last (by simpa using hlast)
    rwa [Nat.add_right_comm k] at hend

theorem ends_rawGet {calls : Calls} {t : Nat} {i : Int64}
    (hend : (rawGet t (.int i) : Declaring Value).Ends calls h (.ok v) h' es) :
    (h.table t).get (.int i) = v ∧ h.Similar h' ∧ es = [] := by
  have hrun := (looks_rawGet t (.int i)).runs_of_ends hend
  obtain ⟨rfl, rfl, rfl⟩ := (runs_rawGet rfl rfl).unique hrun
  exact ⟨rfl, similar_rawGet h t _, rfl⟩

theorem eq_nil_of_isNil (hv : v.isNil = true) : v = .nil := by
  cases v with
  | nil => rfl
  | _ => cases hv

/-- What the entries of a list come to, if they are all read. -/
theorem ends_entriesFrom {calls : Calls} {c : Category} {kind : String} {t k n : Nat} {acc fields : List Field}
    {g : Heap} (hg : h.Similar g)
    (hend : (entriesFrom x c kind t acc (Int64.ofNat (k + 1)) n).Ends calls g (.ok fields) h' es) :
    ∃ vs fs, fields = acc.reverse ++ fs ∧ Sequence h t k n vs ∧ List.Forall₂ (EntryOf x h c kind) vs fs ∧
      h.Similar h' ∧ es = [] := by
  induction n generalizing k acc g es with
  | zero =>
    obtain ⟨heq, rfl, rfl⟩ := ends_done_iff.mp hend
    cases heq
    exact ⟨[], [], (List.append_nil _).symm, ⟨Nat.le_refl _, nofun, nofun, nofun⟩, .nil, hg, rfl⟩
  | succ n ih =>
    obtain ⟨v, g₁, _, _, hget, hrest, rfl⟩ := ends_bind_ok_iff.mp hend
    obtain ⟨hv, hg₁, rfl⟩ := ends_rawGet hget
    rw [(hg.table t).get] at hv
    split at hrest
    · rename_i hnil
      obtain ⟨heq, rfl, rfl⟩ := ends_done_iff.mp hrest
      cases heq
      obtain rfl := eq_nil_of_isNil hnil
      exact ⟨[], [], (List.append_nil _).symm, ⟨Nat.zero_le _, nofun, nofun, fun _ => hv⟩, .nil, hg.trans hg₁, rfl⟩
    · rename_i hpresent
      obtain ⟨raw, g₂, _, _, hread, hdeclare, rfl⟩ := ends_bind_ok_iff.mp hrest
      obtain ⟨hraw, hg₂, rfl⟩ := ends_read hread
      obtain ⟨f, _, _, _, hbrought, hothers, rfl⟩ := ends_bind_ok_iff.mp hdeclare
      obtain ⟨hf, rfl, rfl⟩ := ends_normalized hbrought
      rw [ofNat_add_one] at hothers
      obtain ⟨vs, fs, rfl, hvs, hall, hsimilar, rfl⟩ := ih ((hg.trans hg₁).trans hg₂) hothers
      refine ⟨v :: vs, f :: fs, ?_, hvs.cons hv (by simpa using hpresent), .cons ?_ hall, hsimilar, rfl⟩
      · rw [List.reverse_cons, List.append_assoc, List.singleton_append]
      · exact ⟨raw, hraw.earlier (hg.trans hg₁), hf⟩

theorem ends_entries {t : Nat} {c : Category} {fields? : Option (List Field)}
    (hend : (entries x t c).Ends anyCalls h (.ok fields?) h' es) : ListOf x t c h fields? h' ∧ es = [] := by
  obtain ⟨found, g, fs, _, hfound, hrest, rfl⟩ := ends_bind_ok_iff.mp hend
  obtain rfl := (Operation.emits_index _ _).effects_of_ends hfound
  split at hrest
  · obtain ⟨heq, rfl, rfl⟩ := ends_done_iff.mp hrest
    cases heq
    exact ⟨.absent hfound, rfl⟩
  · obtain ⟨fields, _, _, _, hentries, hdone, rfl⟩ := ends_bind_ok_iff.mp hrest
    obtain ⟨heq, rfl, rfl⟩ := ends_done_iff.mp hdone
    cases heq
    obtain ⟨vs, fs, rfl, hvs, hall, hsimilar, rfl⟩ := ends_entriesFrom (k := 0) (.refl g) hentries
    exact ⟨.present hfound hvs hall hsimilar, rfl⟩
  · cases hrest

theorem declares_of_define {args vs : List Value} (hend : (define x args).Ends anyCalls h (.ok vs) h' es) :
    ∃ d, es = [d] ∧ Declares x defineStrategy args h d := by
  unfold define at hend
  dsimp only at hend
  split at hend
  · rename_i t htable
    obtain ⟨parameters, g, _, _, hfirst, hrest, rfl⟩ := ends_bind_ok_iff.mp hend
    obtain ⟨hparameters, rfl⟩ := ends_entries hfirst
    obtain ⟨factors, g', _, _, hsecond, hemit, rfl⟩ := ends_bind_ok_iff.mp hrest
    obtain ⟨hfactors, rfl⟩ := ends_entries hsecond
    cases hemit with
    | emit hdone =>
      obtain ⟨-, -, rfl⟩ := ends_done_iff.mp hdone
      exact ⟨_, rfl, .strategy htable hparameters hfactors⟩
  · rename_i hvalue
    cases hend with
    | emit hdone =>
      obtain ⟨-, -, rfl⟩ := ends_done_iff.mp hdone
      exact ⟨_, rfl, .value hvalue⟩

/-- A call that answers has declared what its arguments say, and nothing else. -/
theorem declares_of_ends {c : Capability} (hc : c.declares = true) {args vs : List Value}
    (hend : (c.run x args).Ends anyCalls h (.ok vs) h' es) : ∃ d, es = [d] ∧ Declares x c args h d := by
  cases c with
  | builder c kind => exact declares_of_build hend
  | defineStrategy => exact declares_of_define hend
  | _ => cases hc

/-! ## Declaring last -/

theorem emitsLast_build (x : Fixtures) (c : Category) (kind : String) (args : List Value) :
    (build x c kind args).EmitsLast := by
  unfold build
  extract_lets reads
  have hreads (options : Json) : (reads options).EmitsLast := by
    unfold reads
    extract_lets declared
    have hdeclared (key : Option Json) : (declared key).EmitsLast := by
      refine EmitsLast.bind (looks_normalized _ c kind).emits fun f => ?_
      exact EmitsLast.bind (emits_ofField _ f) fun shown => ⟨_, rfl⟩
    split
    · exact hdeclared none
    · exact EmitsLast.bind (Emits.map (emits_read _ _) some) hdeclared
  split
  · exact EmitsLast.bind (emits_read _ _) hreads
  · exact hreads .null

theorem emitsLast_define (x : Fixtures) (args : List Value) : (define x args).EmitsLast := by
  unfold define
  dsimp only
  split
  · refine EmitsLast.bind (obeys_entries x _ _).emits fun parameters => ?_
    exact EmitsLast.bind (obeys_entries x _ _).emits fun factors => ⟨_, rfl⟩
  · exact ⟨_, rfl⟩

/-- Nothing of a call comes after what it declares. -/
theorem emitsLast_run (x : Fixtures) {c : Capability} (hc : c.declares = true) (args : List Value) :
    (c.run x args).EmitsLast := by
  cases c with
  | builder c kind => exact emitsLast_build x c kind args
  | defineStrategy => exact emitsLast_define x args
  | _ => cases hc

end StrategyBench.Sandbox.Capability

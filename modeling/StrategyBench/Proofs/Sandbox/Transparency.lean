/-
StrategyBench.Proofs.Sandbox.Transparency — what a script notices of the guards in calls that they let pass.

A guard that does not refuse a call nearly always hands it over, and then the call comes to whatever the
function itself comes to (`guarded_iff`). Two guards do something of their own. `string.rep` of nothing is
answered by the guard, which has looked for a number and not for what the function takes; and `setmetatable` is
handed two arguments, also where the script has given one. Where the function would not have raised an error
over that, the script cannot tell them apart; where it would have, the call has an answer that it should not
have (`transparent_iff_not_loose`).

The functions that an original calls in its turn may come to anything.
-/

import StrategyBench.Proofs.Lua.Outcomes
import StrategyBench.Proofs.Sandbox.NativeLoops
import StrategyBench.Sandbox.Environment

namespace StrategyBench.Sandbox

open Lua Program
open Library (argument absent)

/-! ## Calls of functions that a script has -/

/-- Calls of functions of the libraries and of the host, where what they call in their turn is given. -/
def Environment.served (x : Fixtures) (cell : Nat) (others : Calls) : Calls := fun f args h r h' =>
  match f with
  | .native g => ∃ es, ((library x cell).run g args).Ends others h r h' es
  | f => others f args h r h'

namespace Guard

/-- A call of the function that a script finds in the place of a guarded one. -/
def Guarded (x : Fixtures) (cell : Nat) (others : Calls) (g : Guard) (args : List Value) (h : Heap)
    (r : Except Raise (List Value)) (h' : Heap) : Prop :=
  Environment.served x cell (Environment.served x cell others) (Capability.guard g).value args h r h'

/-- A call of the guarded function itself. -/
def Unguarded (x : Fixtures) (cell : Nat) (others : Calls) (g : Guard) (args : List Value) (h : Heap)
    (r : Except Raise (List Value)) (h' : Heap) : Prop :=
  Environment.served x cell others (.native (.builtin g.guarded)) args h r h'

/-- The finalizer that a guard finds in the arguments. -/
def finalizerAt (g : Guard) (args : List Value) (h : Heap) : Value :=
  match g, args.getD 1 .nil with
  | setmetatable, .table m => (h.table m).keyed (.ofString "__gc")
  | _, _ => .nil

/-- What a guard makes of a call on a heap. -/
def verdict (g : Guard) (args : List Value) (h : Heap) : Verdict := g.judge args (g.finalizerAt args h)

/-- What comes of a verdict. -/
def carryOut (g : Guard) : Verdict → Declaring (List Value)
  | .refused text => Program.raise (.host (.message text))
  | .answered results => .done results
  | .handedOver args => Program.invoke (.native (.builtin g.guarded)) args

variable {ε : Type} {calls others : Calls} {x : Fixtures} {cell : Nat} {g : Guard} {args : List Value} {h h' : Heap}
  {r : Except Raise (List Value)} {v : Value} {vs : List Value}

theorem ends_finalizerOf_iff {found : Except Raise Value} {es : List ε} :
    (g.finalizerOf args : Program ε Value).Ends calls h found h' es ↔
      found = .ok (g.finalizerAt args h) ∧ h' = h ∧ es = [] := by
  unfold finalizerOf finalizerAt
  cases g with
  | setmetatable =>
    cases args.getD 1 .nil with
    | table m => exact ends_rawGet_ofString_iff
    | _ => exact ends_done_iff
  | _ => exact ends_done_iff

theorem named_guard (g : Guard) : Capability.named (Capability.guard g).name = some (.guard g) := by
  cases g <;> decide +kernel

theorem unguarded_iff : g.Unguarded x cell others args h r h' ↔ (g.guarded.run args).Ends others h r h' [] := by
  constructor
  · rintro ⟨es, hend⟩
    exact (ends_lift_iff.mp hend).1
  · intro hend
    exact ⟨[], ends_lift_iff.mpr ⟨hend, rfl⟩⟩

theorem guarded_iff_call : g.Guarded x cell others args h r h' ↔
    ∃ es, (g.call args : Declaring (List Value)).Ends (Environment.served x cell others) h r h' es := by
  have hrun : (Environment.library x cell).run (.host (Capability.guard g).name) args = g.call args := by
    simp only [Environment.library, named_guard]
    rfl
  rw [← hrun]
  rfl

/-- A guarded call is what its verdict says. -/
theorem guarded_iff : g.Guarded x cell others args h r h' ↔
    match g.verdict args h with
    | .refused text => r = .error (.host (.message text)) ∧ h' = h
    | .answered results => r = .ok results ∧ h' = h
    | .handedOver args' => g.Unguarded x cell others args' h r h' := by
  have hjudged (es : List Declared) :
      (g.call args : Declaring (List Value)).Ends (Environment.served x cell others) h r h' es ↔
        (g.carryOut (g.verdict args h)).Ends (Environment.served x cell others) h r h' es :=
    ends_bind_of_answers fun _ _ _ => ends_finalizerOf_iff
  simp only [guarded_iff_call, hjudged]
  cases g.verdict args h with
  | refused text => simp only [carryOut, Program.raise, ends_fail_iff, exists_and_left, exists_eq, and_true]
  | answered results => simp only [carryOut, ends_done_iff, exists_and_left, exists_eq, and_true]
  | handedOver args' => simp only [carryOut, ends_invoke_iff, exists_and_left, exists_eq, and_true, Unguarded]

/-- Where a guard hands over the very arguments of a call, nothing has changed. -/
theorem guarded_iff_unguarded (hverdict : g.verdict args h = .handedOver args) :
    g.Guarded x cell others args h r h' ↔ g.Unguarded x cell others args h r h' := by
  rw [guarded_iff, hverdict]

/-! ## Copies of nothing -/

theorem positional_ne_empty (d : Decimal.Digits) (point : Bool) : Decimal.positional d point ≠ "" := by
  unfold Decimal.positional Decimal.withPoint
  split
  · dsimp only
    split <;> simp [String.append_eq_empty_iff]
  · split
    · exact Nat.repr_ne_empty
    · simp [String.append_eq_empty_iff]

theorem plain_ne_empty (y : Double) : Decimal.plain.write y ≠ "" := by
  unfold Decimal.Form.write
  dsimp only
  split
  · simp [Decimal.plain]
  split
  · simp [String.append_eq_empty_iff, Decimal.plain]
  split
  · simp [String.append_eq_empty_iff, positional_ne_empty]
  · simp [String.append_eq_empty_iff]

/-- Only a string is empty when a guard reads it as a text. -/
theorem eq_str_of_textOf_empty {s : ByteArray} (htext : textOf v = some s) (hs : s.size = 0) : v = .str s := by
  have hnot (t : String) (ht : t ≠ "") (htext : some (Bytes.ofString t) = some s) : False := by
    rw [← Option.some.inj htext] at hs
    exact ht (String.utf8ByteSize_eq_zero_iff.mp hs)
  cases v with
  | str t => rw [Option.some.inj htext]
  | int i => exact (hnot _ (toString_int_ne_empty _) htext).elim
  | float y => exact (hnot _ (plain_ne_empty y) htext).elim
  | _ => cases htext

/-- Nothing is to be repeated a number of times, with no text between that is something. -/
structure EmptyCopies (args : List Value) : Prop where
  unit : ∃ s, argument args 1 = .str s ∧ s.size = 0
  count : ∃ i, integerOf (argument args 2) = some i
  separator : ∀ s, textOf (argument args 3) = some s → s.size = 0

theorem judgeRep_of_emptyCopies (hcopies : EmptyCopies args) : judgeRep args = .answered [.str ByteArray.empty] := by
  obtain ⟨s, hunit, hs⟩ := hcopies.unit
  obtain ⟨i, hcount⟩ := hcopies.count
  have hseparator : ((textOf (argument args 3)).map ByteArray.size).getD 0 = 0 := by
    cases htext : textOf (argument args 3) with
    | none => rfl
    | some t => exact hcopies.separator t htext
  have hunitOf : textOf (argument args 1) = some s := by
    rw [hunit]
    rfl
  simp only [judgeRep, bind_textOf, bind_integerOf, hunitOf, hcount, hseparator, Option.map_some, hs, if_true]

theorem judgeRep_of_not_emptyCopies (hcopies : ¬EmptyCopies args) : judgeRep args = .handedOver args := by
  simp only [judgeRep, bind_textOf, bind_integerOf]
  split
  · rename_i unit i hunit hcount
    obtain ⟨s, hs, rfl⟩ := Option.map_eq_some_iff.mp hunit
    have hsome : s.size + ((textOf (argument args 3)).map ByteArray.size).getD 0 ≠ 0 := by
      intro hzero
      refine hcopies ⟨⟨s, eq_str_of_textOf_empty hs (by omega), by omega⟩, ⟨i, hcount⟩, fun t ht => ?_⟩
      rw [ht, Option.map_some, Option.getD_some] at hzero
      omega
    rw [if_neg hsome]
  · rfl

theorem integer_of_toInt {n : Nat} {i : Int64} (hi : (argument args n).toInt? = some i) :
    Library.integer args n = .done i := by
  rw [Library.integer, hi]

theorem integer_of_toInt_none {n : Nat} (hnone : (argument args n).toInt? = none) :
    ∃ e, Library.integer args n = .fail e := by
  rw [Library.integer, hnone]
  dsimp only
  split
  · exact ⟨_, rfl⟩
  · exact ⟨_, rfl⟩

theorem text_iff_textOf : (v.text?).isSome = (textOf v).isSome := by
  cases v <;> rfl

/-- A separator that the function takes is nothing too. -/
theorem stringOr_of_emptyCopies (hcopies : EmptyCopies args)
    (hread : absent args 3 = true ∨ (argument args 3).text?.isSome = true) :
    ∃ s, s.size = 0 ∧ Library.stringOr args 3 ByteArray.empty = .done s := by
  by_cases habsent : absent args 3 = true
  · exact ⟨ByteArray.empty, rfl, by rw [Library.stringOr, if_pos habsent]⟩
  · have hsome := hread.resolve_left habsent
    rw [text_iff_textOf] at hsome
    obtain ⟨s, hs⟩ := Option.isSome_iff_exists.mp hsome
    have hsize := hcopies.separator s hs
    have htext : (argument args 3).text? = some s := by
      rw [eq_str_of_textOf_empty hs hsize]
      rfl
    exact ⟨s, hsize, by rw [Library.stringOr, if_neg habsent, Library.string, htext]⟩

theorem ends_answerText_iff {text : ByteArray} {es : List Empty} :
    (Library.answerText text).Ends calls h r h' es ↔
      r = .ok [.str text] ∧ h' = h.reserve (text.size + 25) ∧ es = [] :=
  (ends_heap_iff rfl).trans ends_done_iff

/-- Copies of nothing that the function takes are nothing, and no object is made or changed. -/
theorem rep_of_emptyCopies (calls : Calls) (hcopies : EmptyCopies args) {n : Int64}
    (hcount : (argument args 2).toInt? = some n)
    (hread : absent args 3 = true ∨ (argument args 3).text?.isSome = true) (h : Heap) :
    ∃ k, k.objects = h.objects ∧ ∀ r h',
      (Library.Text.rep args).Ends calls h r h' [] ↔ r = .ok [.str ByteArray.empty] ∧ h' = k := by
  obtain ⟨unit, hunit, hunit0⟩ := hcopies.unit
  obtain ⟨separator, hseparator0, hseparator⟩ := stringOr_of_emptyCopies hcopies hread
  have hstring : Library.string args 1 = .done unit := by rw [Library.string, hunit, Value.text?]
  have hrep : Library.Text.rep args =
      if n ≤ 0 then Library.answerText ByteArray.empty
      else Program.heap (.spend (n.toInt.toNat / Library.Text.emptyCopiesPerStep)) fun _ =>
        Library.answerText ByteArray.empty := by
    unfold Library.Text.rep
    rw [hstring, integer_of_toInt hcount, hseparator]
    change (if n ≤ 0 then Library.answerText ByteArray.empty else if _ then _ else if _ then _ else _) = _
    rw [hunit0, hseparator0, if_neg (Nat.not_lt_zero _), if_pos rfl]
    rfl
  rw [hrep]
  split
  · refine ⟨h.reserve 25, rfl, fun r h' => ?_⟩
    rw [ends_answerText_iff]
    simp
  · refine ⟨(h.spend (n.toInt.toNat / Library.Text.emptyCopiesPerStep)).reserve 25, rfl, fun r h' => ?_⟩
    rw [ends_heap_iff rfl, ends_answerText_iff]
    simp [Machine.applyOp]

/-- What the function does not take it raises an error over. -/
theorem rep_fails (hcopies : EmptyCopies args)
    (hnot : (argument args 2).toInt? = none ∨ absent args 3 = false ∧ (argument args 3).text? = none) :
    ∃ e, Library.Text.rep args = .fail e := by
  obtain ⟨unit, hunit, -⟩ := hcopies.unit
  have hstring : Library.string args 1 = .done unit := by rw [Library.string, hunit, Value.text?]
  unfold Library.Text.rep
  rw [hstring]
  cases hcount : (argument args 2).toInt? with
  | none =>
    obtain ⟨e, he⟩ := integer_of_toInt_none hcount
    rw [he]
    exact ⟨e, rfl⟩
  | some n =>
    obtain ⟨habsent, hnone⟩ := hnot.resolve_left (by simp [hcount])
    rw [integer_of_toInt hcount, Library.stringOr, habsent, Library.string, hnone]
    exact ⟨_, rfl⟩

/-! ## Metatables -/

/-- Two arguments are all that the function looks at. -/
theorem setmetatable_of_two (hargs : 2 ≤ args.length) :
    Library.Basic.setmetatable [args.getD 0 .nil, args.getD 1 .nil] = Library.Basic.setmetatable args := by
  match args, hargs with
  | _ :: _ :: _, _ => rfl

theorem setmetatable_of_no_table (hargs : args.length < 2) (hno : ∀ t, argument args 1 ≠ .table t) :
    (∃ e, Library.Basic.setmetatable [args.getD 0 .nil, args.getD 1 .nil] = .fail e) ∧
      ∃ e, Library.Basic.setmetatable args = .fail e := by
  have hfails {as : List Value} (has : argument as 1 = argument args 1) :
      ∃ e, Library.Basic.setmetatable as = .fail e := by
    have htable : ∃ e, Library.table as 1 = .fail e := by
      rw [Library.table, has]
      cases harg : argument args 1 with
      | table t => exact absurd harg (hno t)
      | _ => exact ⟨_, rfl⟩
    obtain ⟨e, he⟩ := htable
    unfold Library.Basic.setmetatable
    rw [he]
    exact ⟨e, rfl⟩
  refine ⟨hfails ?_, hfails rfl⟩
  cases args <;> rfl

theorem setmetatable_single (t : Nat) : ∃ e, Library.Basic.setmetatable [.table t] = .fail e := ⟨_, rfl⟩

/-- No metatable is taken from a table unless that is protected. -/
theorem ends_setmetatable_nil_iff {t : Nat} {es : List Empty} :
    (Library.Basic.setmetatable [.table t, .nil]).Ends calls h r h' es ↔
      if (h.metamethod (.table t) (Bytes.ofString "__metatable")).isNil then
        r = .ok [.table t] ∧ h' = h.modifyTable t (fun t => { t with meta? := none }) ∧ es = []
      else r = .error (.located (Bytes.ofString "cannot change a protected metatable")) ∧ h' = h ∧ es = [] := by
  refine (ends_bind_of_answers fun _ _ _ => ends_metamethod_iff).trans ?_
  cases (h.metamethod (.table t) (Bytes.ofString "__metatable")).isNil with
  | true => exact (ends_heap_iff rfl).trans ends_done_iff
  | false => exact ends_fail_iff

/-! ## Transparency -/

/-- The script cannot tell a guarded call from one of the function itself: they come to the same answers with
the same objects, and raise an error in the same cases. -/
structure Transparent (x : Fixtures) (cell : Nat) (others : Calls) (g : Guard) (args : List Value) (h : Heap) :
    Prop where
  answers : ∀ vs objects, (∃ h', g.Guarded x cell others args h (.ok vs) h' ∧ h'.objects = objects) ↔
    ∃ h', g.Unguarded x cell others args h (.ok vs) h' ∧ h'.objects = objects
  raises : (∃ e h', g.Guarded x cell others args h (.error e) h') ↔
    ∃ e h', g.Unguarded x cell others args h (.error e) h'

/-- Calls over which a function raises an error, and its guard does not. -/
inductive Loose : Guard → List Value → Heap → Prop
  /-- A number of copies that is no integer. -/
  | count {args : List Value} {h : Heap} (hcopies : EmptyCopies args) (hcount : (argument args 2).toInt? = none) :
    Loose .rep args h
  /-- A separator that is there, and is no text. -/
  | separator {args : List Value} {h : Heap} (hcopies : EmptyCopies args) (hpresent : absent args 3 = false)
    (hseparator : (argument args 3).text? = none) : Loose .rep args h
  /-- No metatable is given, not even nil. -/
  | metatable {t : Nat} {h : Heap} (hunprotected : (h.metamethod (.table t) (Bytes.ofString "__metatable")).isNil) :
    Loose .setmetatable [.table t] h

theorem transparent_of_same
    (hsame : ∀ r h', g.Guarded x cell others args h r h' ↔ g.Unguarded x cell others args h r h') :
    Transparent x cell others g args h := by
  constructor
  · simp only [hsame, implies_true]
  · simp only [hsame]

/-- Two calls that raise an error are not told apart by what it is. -/
theorem transparent_of_fail {e e' : Raise}
    (hguarded : ∀ r h', g.Guarded x cell others args h r h' ↔ r = .error e ∧ h' = h)
    (hunguarded : ∀ r h', g.Unguarded x cell others args h r h' ↔ r = .error e' ∧ h' = h) :
    Transparent x cell others g args h := by
  constructor
  · intro vs objects
    simp only [hguarded, hunguarded, reduceCtorEq, false_and]
  · constructor
    · exact fun _ => ⟨e', h, (hunguarded _ _).mpr ⟨rfl, rfl⟩⟩
    · exact fun _ => ⟨e, h, (hguarded _ _).mpr ⟨rfl, rfl⟩⟩

theorem unguarded_of_fail {e : Raise} (hrun : g.guarded.run args = .fail e) :
    g.Unguarded x cell others args h r h' ↔ r = .error e ∧ h' = h := by
  rw [unguarded_iff, hrun, ends_fail_iff]
  simp

theorem guarded_of_emptyCopies (hcopies : EmptyCopies args) :
    rep.Guarded x cell others args h r h' ↔ r = .ok [.str ByteArray.empty] ∧ h' = h := by
  have hverdict : rep.verdict args h = .answered [.str ByteArray.empty] := judgeRep_of_emptyCopies hcopies
  rw [guarded_iff, hverdict]

theorem transparent_rep (hloose : ¬Loose .rep args h) : Transparent x cell others .rep args h := by
  by_cases hcopies : EmptyCopies args
  · obtain ⟨n, hcount⟩ : ∃ n, (argument args 2).toInt? = some n :=
      Option.ne_none_iff_exists'.mp fun hnone => hloose (.count hcopies hnone)
    have hread : absent args 3 = true ∨ (argument args 3).text?.isSome = true := by
      by_contra hnot
      obtain ⟨hpresent, hseparator⟩ := not_or.mp hnot
      exact hloose (.separator hcopies (by simpa using hpresent) (by simpa using hseparator))
    obtain ⟨k, hk, hends⟩ := rep_of_emptyCopies others hcopies hcount hread h
    have hunguarded (r : Except Raise (List Value)) (h' : Heap) :
        rep.Unguarded x cell others args h r h' ↔ r = .ok [.str ByteArray.empty] ∧ h' = k :=
      unguarded_iff.trans (hends r h')
    constructor
    · intro vs objects
      simp only [guarded_of_emptyCopies hcopies, hunguarded, and_assoc, exists_and_left, exists_eq_left, hk]
    · simp only [guarded_of_emptyCopies hcopies, hunguarded, reduceCtorEq, false_and, exists_false]
  · exact transparent_of_same fun r h' => guarded_iff_unguarded (judgeRep_of_not_emptyCopies hcopies)

/-- Where no finalizer is refused, two arguments are handed over. -/
theorem guarded_setmetatable_iff (hpass : ∀ text, setmetatable.verdict args h ≠ .refused text) :
    setmetatable.Guarded x cell others args h r h' ↔
      setmetatable.Unguarded x cell others [args.getD 0 .nil, args.getD 1 .nil] h r h' := by
  have hverdict : setmetatable.verdict args h = .handedOver [args.getD 0 .nil, args.getD 1 .nil] := by
    by_cases hfinalizer : (setmetatable.finalizerAt args h).isNil = true
    · exact if_pos hfinalizer
    · exact absurd (if_neg hfinalizer) (hpass _)
  rw [guarded_iff, hverdict]

theorem transparent_setmetatable (hpass : ∀ text, setmetatable.verdict args h ≠ .refused text)
    (hloose : ¬Loose .setmetatable args h) : Transparent x cell others .setmetatable args h := by
  by_cases htwo : 2 ≤ args.length
  · refine transparent_of_same fun r h' => ?_
    rw [guarded_setmetatable_iff hpass, unguarded_iff, unguarded_iff]
    change (Library.Basic.setmetatable _).Ends .. ↔ (Library.Basic.setmetatable _).Ends ..
    rw [setmetatable_of_two htwo]
  by_cases htable : ∃ t, argument args 1 = .table t
  · obtain ⟨t, ht⟩ := htable
    obtain rfl : args = [.table t] := by
      obtain _ | ⟨v, _ | ⟨w, rest⟩⟩ := args
      · cases ht
      · exact congrArg ([·]) ht
      · exact absurd (by simp) htwo
    obtain ⟨e, he⟩ := setmetatable_single t
    have hguarded (r : Except Raise (List Value)) (h' : Heap) :
        setmetatable.Guarded x cell others [.table t] h r h' ↔
          r = .error (.located (Bytes.ofString "cannot change a protected metatable")) ∧ h' = h := by
      rw [guarded_setmetatable_iff hpass, unguarded_iff]
      refine (ends_setmetatable_nil_iff (h := h)).trans ?_
      rw [if_neg fun hunprotected => hloose (.metatable hunprotected)]
      simp
    exact transparent_of_fail hguarded fun r h' => unguarded_of_fail he
  · obtain ⟨⟨e, he⟩, e', he'⟩ :=
      setmetatable_of_no_table (by omega) fun t ht => htable ⟨t, ht⟩
    have hguarded (r : Except Raise (List Value)) (h' : Heap) :
        setmetatable.Guarded x cell others args h r h' ↔ r = .error e ∧ h' = h := by
      rw [guarded_setmetatable_iff hpass]
      exact unguarded_of_fail he
    exact transparent_of_fail hguarded fun r h' => unguarded_of_fail he'

/-- A loose call is answered, and the function itself raises an error. -/
theorem Loose.answers (hloose : Loose g args h) (x : Fixtures) (cell : Nat) (others : Calls) :
    (∃ vs h', g.Guarded x cell others args h (.ok vs) h') ∧
      ∃ e, ∀ r h', g.Unguarded x cell others args h r h' ↔ r = .error e ∧ h' = h := by
  have hcopied (hcopies : EmptyCopies args)
      (hnot : (argument args 2).toInt? = none ∨ absent args 3 = false ∧ (argument args 3).text? = none) :
      (∃ vs h', rep.Guarded x cell others args h (.ok vs) h') ∧
        ∃ e, ∀ r h', rep.Unguarded x cell others args h r h' ↔ r = .error e ∧ h' = h := by
    obtain ⟨e, he⟩ := rep_fails hcopies hnot
    exact ⟨⟨_, _, (guarded_of_emptyCopies hcopies).mpr ⟨rfl, rfl⟩⟩, e, fun _ _ => unguarded_of_fail he⟩
  cases hloose with
  | count hcopies hcount => exact hcopied hcopies (.inl hcount)
  | separator hcopies hpresent hseparator => exact hcopied hcopies (.inr ⟨hpresent, hseparator⟩)
  | metatable hunprotected =>
    rename_i t
    obtain ⟨e, he⟩ := setmetatable_single t
    refine ⟨⟨[.table t], h.modifyTable t (fun t => { t with meta? := none }), ?_⟩, e, fun _ _ => unguarded_of_fail he⟩
    rw [guarded_setmetatable_iff, unguarded_iff]
    · refine ends_setmetatable_nil_iff.mpr ?_
      rw [if_pos hunprotected]
      exact ⟨rfl, rfl, rfl⟩
    · intro text hrefused
      cases hrefused

theorem Loose.not_transparent (hloose : Loose g args h) : ¬Transparent x cell others g args h := by
  obtain ⟨⟨vs, h', hguarded⟩, e, hunguarded⟩ := hloose.answers x cell others
  intro htransparent
  obtain ⟨k, hk, -⟩ := (htransparent.answers vs h'.objects).mp ⟨h', hguarded, rfl⟩
  cases ((hunguarded _ _).mp hk).1

/-- The guards of patterns and of ranges hand over what they do not refuse. -/
theorem transparent_of_handedOver (hjudge : ∀ finalizer, g.judge args finalizer = .handedOver args ∨
    ∃ text, g.judge args finalizer = .refused text) (hpass : ∀ text, g.verdict args h ≠ .refused text) :
    Transparent x cell others g args h := by
  refine transparent_of_same fun r h' => guarded_iff_unguarded ?_
  rcases hjudge (g.finalizerAt args h) with hhanded | ⟨text, hrefused⟩
  · exact hhanded
  · exact absurd hrefused (hpass text)

theorem judgePattern_cases (g : Guard) (args : List Value) :
    g.judgePattern args = .handedOver args ∨ ∃ text, g.judgePattern args = .refused text := by
  unfold judgePattern
  split
  · exact .inl rfl
  split
  · split
    · exact .inr ⟨_, rfl⟩
    · exact .inl rfl
  · exact .inl rfl

theorem judgeMove_cases (args : List Value) :
    judgeMove args = .handedOver args ∨ ∃ text, judgeMove args = .refused text := by
  unfold judgeMove
  split
  · dsimp only
    split
    · exact .inr ⟨_, rfl⟩
    · exact .inl rfl
  · exact .inl rfl

/-- Of the calls that a guard does not refuse, the script can tell only the loose ones from calls of the
function itself. -/
theorem transparent_iff_not_loose (x : Fixtures) (cell : Nat) (others : Calls)
    (hpass : ∀ text, g.verdict args h ≠ .refused text) :
    Transparent x cell others g args h ↔ ¬Loose g args h := by
  constructor
  · exact fun htransparent hloose => hloose.not_transparent htransparent
  · intro hloose
    cases g with
    | find | match_ | gmatch | gsub => exact transparent_of_handedOver (fun _ => judgePattern_cases _ args) hpass
    | move => exact transparent_of_handedOver (fun _ => judgeMove_cases args) hpass
    | rep => exact transparent_rep hloose
    | setmetatable => exact transparent_setmetatable hpass hloose

/-- Three copies of a text are the same with the guard and without. -/
theorem copies_of_text_are_transparent :
    (∀ text, rep.verdict [.ofString "ab", .int 3] {} ≠ .refused text) ∧
      (Transparent ⟨0, 0⟩ 0 noCalls .rep [.ofString "ab", .int 3] {} ↔ ¬Loose .rep [.ofString "ab", .int 3] {}) ∧
      Transparent ⟨0, 0⟩ 0 noCalls .rep [.ofString "ab", .int 3] {} := by
  have hpass (text : String) : rep.verdict [.ofString "ab", .int 3] {} ≠ .refused text := nofun
  have hiff := transparent_iff_not_loose ⟨0, 0⟩ 0 noCalls hpass
  have hcopies : ¬EmptyCopies [.ofString "ab", .int 3] := by
    rintro ⟨⟨s, hs, hsize⟩, -, -⟩
    cases hs
    exact absurd hsize (by decide +kernel)
  refine ⟨hpass, hiff, hiff.mpr ?_⟩
  rintro (⟨h, -⟩ | ⟨h, -⟩)
  · exact hcopies h
  · exact hcopies h

/-- Two and a half copies of nothing, five with a table between, and a metatable that is left out: the guards
refuse none of these calls, and answer them all the same. -/
theorem loose_calls_are_answered :
    (∀ text, rep.verdict [.ofString "", .float ⟨0x4004000000000000⟩] {} ≠ .refused text) ∧
      ¬Transparent ⟨0, 0⟩ 0 noCalls .rep [.ofString "", .float ⟨0x4004000000000000⟩] {} ∧
    (∀ text, rep.verdict [.ofString "", .int 5, .table 0] {} ≠ .refused text) ∧
      ¬Transparent ⟨0, 0⟩ 0 noCalls .rep [.ofString "", .int 5, .table 0] {} ∧
    (∀ text, setmetatable.verdict [.table 0] {} ≠ .refused text) ∧
      ¬Transparent ⟨0, 0⟩ 0 noCalls .setmetatable [.table 0] {} := by
  have hfraction : EmptyCopies [.ofString "", .float ⟨0x4004000000000000⟩] :=
    ⟨⟨_, rfl, rfl⟩, ⟨2, by decide +kernel⟩, nofun⟩
  have htable : EmptyCopies [.ofString "", .int 5, .table 0] := ⟨⟨_, rfl, rfl⟩, ⟨5, rfl⟩, nofun⟩
  have hanswered {args : List Value} (hcopies : EmptyCopies args) (text : String) :
      rep.verdict args {} ≠ .refused text := by
    change judgeRep args ≠ _
    rw [judgeRep_of_emptyCopies hcopies]
    exact nofun
  refine ⟨hanswered hfraction, ?_, hanswered htable, ?_, nofun, ?_⟩
  · exact (Loose.count hfraction (by decide +kernel)).not_transparent
  · exact (Loose.separator htable rfl rfl).not_transparent
  · exact (Loose.metatable rfl).not_transparent

end Guard
end StrategyBench.Sandbox

/-
StrategyBench.Proofs.Sandbox.NativeLoops — how far the guards keep library functions from long loops.

`string.rep` of nothing and `table.move` loop as often as their counts say, and nothing looks at the clock
then. A guard reads the counts that are numbers as the function itself does, so it never lets through a
call that asks for more than may be (`excessive_call_handedOver_iff`). But the function also reads a count
from a string, which the guard takes for no number at all: then, and only then, it lets the call through
(`textual_bounds_are_handed_over`).
-/

import StrategyBench.Lua.Library.Arguments
import StrategyBench.Proofs.Number.Rounding
import StrategyBench.Sandbox.Declare

namespace StrategyBench.Sandbox.Guard

open Lua
open Library (argument absent)

/-! ## What the functions read -/

/-- A call that goes beyond the greatest number of steps, with the arguments read as the library
function reads them. -/
inductive Excessive : Guard → List Value → Prop
  /-- Nothing is repeated, with nothing between. -/
  | rep {args : List Value} {unit : ByteArray} {n : Int64}
    (hunit : (argument args 1).text? = some unit) (hunit0 : unit.size = 0)
    (hseparator : absent args 3 = true ∨ ∃ s, (argument args 3).text? = some s ∧ s.size = 0)
    (hn : (argument args 2).toInt? = some n) (hmany : (PatternCost.maxSteps : Int) < n.toInt) :
    Excessive .rep args
  | move {args : List Value} {f e : Int64}
    (hf : (argument args 2).toInt? = some f) (he : (argument args 3).toInt? = some e)
    (hmany : (PatternCost.maxSteps : Int) < e.toInt - f.toInt + 1) : Excessive .move args

/-- The arguments that say how often a function loops. -/
def countPlaces : Guard → List Nat
  | rep => [2]
  | move => [2, 3]
  | _ => []

/-- The call goes on to the guarded function, with the arguments as they are. -/
def HandsOver (g : Guard) (args : List Value) : Prop :=
  (g.call args : Declaring (List Value)) = Program.invoke (.native (.builtin g.guarded)) args

/-! ## What the guards read -/

theorem toString_int_ne_empty (i : Int) : toString i ≠ "" := by
  cases i with
  | ofNat n =>
    intro h
    have hdigits : n.repr.toList = [] := by
      rw [show n.repr = "" from h]
      rfl
    rw [Nat.toList_repr] at hdigits
    exact Nat.toDigits_ne_nil hdigits
  | negSucc n =>
    intro h
    have hsize := congrArg String.length h
    rw [show toString (Int.negSucc n) = "-" ++ (n + 1).repr from rfl] at hsize
    simp at hsize

theorem floatText_ne_empty (x : Double) : Numeral.floatText x ≠ "" := by
  unfold Numeral.floatText
  dsimp only
  split
  · simp
  · rename_i hplain
    intro hempty
    -- nothing in it but digits: then it would be finite, and have got a `.0`
    rw [hempty] at hplain
    have hfinite : x.isFinite = false := by simpa using hplain
    rw [Numeral.floatDigits, hfinite] at hempty
    have hlength := congrArg String.length hempty
    simp only [Numeral.specialText, Bool.not_false, if_true, String.length_append] at hlength
    split at hlength <;> simp at hlength

/-- Only a string is empty when it is read as a text. -/
theorem eq_str_of_empty {v : Value} {s : ByteArray} (h : v.text? = some s) (hs : s.size = 0) : v = .str s := by
  have hnot (t : String) (ht : t ≠ "") (h : some (Bytes.ofString t) = some s) : False := by
    rw [← Option.some.inj h] at hs
    exact ht (String.utf8ByteSize_eq_zero_iff.mp hs)
  cases v with
  | str t => rw [Option.some.inj h]
  | int i => exact (hnot _ (toString_int_ne_empty _) h).elim
  | float x => exact (hnot _ (floatText_ne_empty x) h).elim
  | _ => cases h

theorem truncate_of_toInt {x : Double} {i : Int} (h : x.toInt? = some i) : x.truncate? = some i := by
  unfold Double.toInt? at h
  unfold Double.truncate?
  split at h
  · rename_i hfinite
    rw [if_pos hfinite]
    dsimp only at h ⊢
    split at h
    · rename_i hexponent
      simpa [hexponent] using h
    · rename_i hexponent
      split at h
      · simpa [hexponent] using h
      · cases h
  · cases h

/-- A number that is read as an integer is the same integer to a guard. -/
theorem integerOf_of_toInt {v : Value} {i : Int64} (h : v.toInt? = some i) (hv : ∀ s, v ≠ .str s) :
    integerOf v = some i.toInt := by
  cases v with
  | int j => exact congrArg _ (congrArg _ (Option.some.inj h))
  | float x =>
    simp only [Value.toInt?, Value.toNumber?, Numeral.exactInt?] at h
    split at h
    · rename_i j hj
      split at h
      · rename_i hrange
        obtain rfl := Option.some.inj h
        have hmin : Numeral.minInt = -2 ^ 63 := rfl
        have hmax : Numeral.maxInt = 2 ^ 63 - 1 := rfl
        simp only [Numeral.inRange, Bool.and_eq_true, decide_eq_true_eq] at hrange
        obtain ⟨hlower, hupper⟩ := hrange
        have hsame : (Int64.ofInt j).toInt = j := Int64.toInt_ofInt_of_le (by omega) (by omega)
        have hclamped : max Numeral.minInt (min Numeral.maxInt j) = j := by omega
        rw [integerOf, truncate_of_toInt hj, Option.map_some, hclamped, hsame]
      · cases h
    · cases h
  | str s => exact absurd rfl (hv s)
  | _ => cases h

theorem bind_textOf (args : List Value) (n : Nat) : args[n]?.bind textOf = textOf (argument args (n + 1)) := by
  cases h : args[n]? <;> simp [argument, h, textOf]

theorem bind_integerOf (args : List Value) (n : Nat) :
    args[n]?.bind integerOf = integerOf (argument args (n + 1)) := by
  cases h : args[n]? <;> simp [argument, h, integerOf]

/-- A value is a string, or a guard reads it as an integer if the function does. -/
theorem str_or_integerOf {v : Value} {i : Int64} (h : v.toInt? = some i) :
    (∃ s, v = .str s ∧ integerOf v = none) ∨ ((∀ s, v ≠ .str s) ∧ integerOf v = some i.toInt) := by
  cases v with
  | str s => exact .inl ⟨s, rfl, rfl⟩
  | _ => exact .inr ⟨nofun, integerOf_of_toInt h nofun⟩

/-! ## Verdicts -/

/-- The guards of loops judge by the arguments, and nothing is called first. -/
theorem rep_call (args : List Value) : (rep.call args : Declaring (List Value)) =
    match judgeRep args with
    | .refused text => Program.raise (.host (.message text))
    | .answered results => .done results
    | .handedOver args => Program.invoke (.native (.builtin .rep)) args := rfl

theorem move_call (args : List Value) : (move.call args : Declaring (List Value)) =
    match judgeMove args with
    | .refused text => Program.raise (.host (.message text))
    | .answered results => .done results
    | .handedOver args => Program.invoke (.native (.builtin .move)) args := rfl

theorem rep_handedOver_iff {args : List Value} {n : Int64} {unit : ByteArray}
    (hunit : (argument args 1).text? = some unit) (hunit0 : unit.size = 0)
    (hseparator : absent args 3 = true ∨ ∃ s, (argument args 3).text? = some s ∧ s.size = 0)
    (hn : (argument args 2).toInt? = some n) :
    rep.HandsOver args ↔ ∃ s, argument args 2 = .str s := by
  have hunitOf : textOf (argument args 1) = some unit := by
    rw [eq_str_of_empty hunit hunit0]
    rfl
  have hseparatorOf : ((textOf (argument args 3)).map ByteArray.size).getD 0 = 0 := by
    rcases hseparator with hnil | ⟨s, hs, hs0⟩
    · unfold absent at hnil
      cases hv : argument args 3 <;> simp_all [Value.isNil, textOf]
    · rw [eq_str_of_empty hs hs0]
      simpa [textOf] using hs0
  unfold HandsOver
  rw [rep_call, judgeRep]
  simp only [bind_textOf, bind_integerOf, hunitOf, hseparatorOf, Option.map_some, hunit0]
  rcases str_or_integerOf hn with ⟨s, hs, hnone⟩ | ⟨hs, hsome⟩
  · simp only [hnone]
    exact ⟨fun _ => ⟨s, hs⟩, fun _ => rfl⟩
  · simp only [hsome, if_true]
    refine ⟨fun h => ?_, fun ⟨s, h⟩ => (hs s h).elim⟩
    cases h

/-- Rounding does not hide that a range is too great. -/
theorem lt_ofInt_of_many {span : Int} (h : (PatternCost.maxSteps : Int) < span) :
    (Double.ofNat PatternCost.maxSteps).lt (Double.ofInt span) = true := by
  obtain ⟨k, rfl⟩ := Int.eq_ofNat_of_zero_le (Int.le_of_lt (Int.lt_of_le_of_lt (Int.natCast_nonneg _) h))
  have hk : PatternCost.maxSteps < k := by exact_mod_cast h
  rw [Double.ofInt_natCast]
  exact Double.lt_of_atLeast (by decide) (by decide)
    ((Double.atLeast_ofNat (Nat.zero_lt_of_lt hk)).mono hk)

theorem move_handedOver_iff {args : List Value} {f e : Int64}
    (hf : (argument args 2).toInt? = some f) (he : (argument args 3).toInt? = some e)
    (hmany : (PatternCost.maxSteps : Int) < e.toInt - f.toInt + 1) :
    move.HandsOver args ↔ ∃ i ∈ [2, 3], ∃ s, argument args i = .str s := by
  unfold HandsOver
  rw [move_call, judgeMove]
  simp only [bind_integerOf]
  rcases str_or_integerOf hf with ⟨s, hs, hnone⟩ | ⟨hfnot, hfsome⟩
  · simp only [hnone]
    exact ⟨fun _ => ⟨2, by simp, s, hs⟩, fun _ => rfl⟩
  · rcases str_or_integerOf he with ⟨s, hs, hnone⟩ | ⟨henot, hesome⟩
    · simp only [hnone, hfsome]
      exact ⟨fun _ => ⟨3, by simp, s, hs⟩, fun _ => rfl⟩
    · have hordered : f.toInt ≤ e.toInt := by
        have : PatternCost.maxSteps = 10000000 := rfl
        omega
      simp only [hfsome, hesome, hordered, lt_ofInt_of_many hmany, decide_true, Bool.and_self, if_true]
      refine ⟨fun h => ?_, ?_⟩
      · cases h
      · rintro ⟨i, hi, s, hs⟩
        rcases List.mem_cons.mp hi with rfl | hi
        · exact (hfnot s hs).elim
        · obtain rfl := List.mem_singleton.mp hi
          exact (henot s hs).elim

/-- A call that asks for too much is let through exactly when one of its counts is written as a string. -/
theorem excessive_call_handedOver_iff {g : Guard} {args : List Value} (h : Excessive g args) :
    g.HandsOver args ↔ ∃ i ∈ g.countPlaces, ∃ s, argument args i = .str s := by
  cases h with
  | rep hunit hunit0 hseparator hn hmany =>
    rw [rep_handedOver_iff hunit hunit0 hseparator hn]
    simp [countPlaces]
  | move hf he hmany => exact move_handedOver_iff hf he hmany

/-- A range that is written in numbers is seen and refused. -/
theorem numeric_range_is_refused :
    Excessive .move [.table 0, .int 1, .int 1000000000000, .int 2] ∧
      ¬move.HandsOver [.table 0, .int 1, .int 1000000000000, .int 2] := by
  have hexcessive : Excessive .move [.table 0, .int 1, .int 1000000000000, .int 2] :=
    .move rfl rfl (by decide)
  refine ⟨hexcessive, fun h => ?_⟩
  obtain ⟨i, hi, s, hs⟩ := (excessive_call_handedOver_iff hexcessive).mp h
  rcases List.mem_cons.mp hi with rfl | hi
  · cases hs
  · obtain rfl := List.mem_singleton.mp hi
    cases hs

/-- The same range in strings goes through, and so does a great number of copies of nothing. -/
theorem textual_bounds_are_handed_over :
    (Excessive .move [.table 0, .ofString "1", .ofString "1000000000000", .int 2] ∧
      move.HandsOver [.table 0, .ofString "1", .ofString "1000000000000", .int 2]) ∧
    Excessive .rep [.ofString "", .ofString "1000000000000"] ∧
      rep.HandsOver [.ofString "", .ofString "1000000000000"] := by
  have hone : (Value.ofString "1").toInt? = some 1 := by decide +kernel
  have hmany : (Value.ofString "1000000000000").toInt? = some 1000000000000 := by decide +kernel
  exact ⟨⟨.move hone hmany (by decide), rfl⟩, .rep rfl rfl (.inl rfl) hmany (by decide), rfl⟩

end StrategyBench.Sandbox.Guard

/-
StrategyBench.Proofs.Lua.Programs — what a program emits and answers, whatever it meets.

A program that goes on with what the heap or a called function answers is judged for all answers
(`Obeys`), so the judgement does not depend on the machine that runs it. The operators emit nothing
of their own (`emits_index` and the others): they hold for every condition on effects.
-/

import StrategyBench.Lua.Call

namespace StrategyBench.Lua

namespace Program

variable {ε α β : Type} {P : ε → Prop} {Q : α → Prop} {R : β → Prop}

/-! ## Effects and answers -/

/-- Every effect that may be emitted satisfies `P`, every answer `Q`. -/
def Obeys (P : ε → Prop) (Q : α → Prop) : Program ε α → Prop
  | done a => Q a
  | fail _ => True
  | heap _ next => ∀ v, (next v).Obeys P Q
  | call _ _ next => ∀ vs, (next vs).Obeys P Q
  | emit e next => P e ∧ ∀ u, (next u).Obeys P Q

/-- Every effect that may be emitted satisfies `P`. -/
abbrev Emits (P : ε → Prop) (p : Program ε α) : Prop := p.Obeys P fun _ => True

/-- The condition that no effect meets. -/
abbrev noEffect (_ : ε) : Prop := False

theorem Obeys.mono {p : Program ε α} {Q' : α → Prop} (h : p.Obeys P Q) (hQ : ∀ a, Q a → Q' a) :
    p.Obeys P Q' := by
  induction p with
  | done a => exact hQ a h
  | fail r => trivial
  | heap o next ih => exact fun v => ih v (h v)
  | call f args next ih => exact fun vs => ih vs (h vs)
  | emit e next ih => exact ⟨h.1, fun u => ih u (h.2 u)⟩

theorem Obeys.emits {p : Program ε α} (h : p.Obeys P Q) : p.Emits P := h.mono fun _ _ => trivial

theorem Obeys.bind {p : Program ε α} {f : α → Program ε β} (h : p.Obeys P Q)
    (hf : ∀ a, Q a → (f a).Obeys P R) : (p >>= f).Obeys P R := by
  induction p with
  | done a => exact hf a h
  | fail r => trivial
  | heap o next ih => exact fun v => ih v (h v)
  | call g args next ih => exact fun vs => ih vs (h vs)
  | emit e next ih => exact ⟨h.1, fun u => ih u (h.2 u)⟩

theorem Emits.bind {p : Program ε α} {f : α → Program ε β} (h : p.Emits P)
    (hf : ∀ a, (f a).Obeys P R) : (p >>= f).Obeys P R :=
  Obeys.bind h fun a _ => hf a

theorem Emits.map {p : Program ε α} (h : p.Emits P) (f : α → β) : (f <$> p).Emits P :=
  Emits.bind h fun _ => trivial

/-- A program meets the condition that is always met. -/
theorem emits_true (p : Program ε α) : p.Emits fun _ => True := by
  induction p with
  | done a => trivial
  | fail r => trivial
  | heap o next ih => exact ih
  | call f args next ih => exact ih
  | emit e next ih => exact ⟨trivial, ih⟩

/-- The programs of the libraries emit nothing. -/
theorem emits_lift (p : Program Empty α) : (p.lift : Program ε α).Emits P := by
  induction p with
  | done a => trivial
  | fail r => trivial
  | heap o next ih => exact ih
  | call f args next ih => exact ih
  | emit e next ih => exact e.elim

/-! ## Steps -/

theorem emits_op (o : HeapOp) : (op o : Program ε Value).Emits P := fun _ => trivial

theorem emits_rawGet (t : Nat) (key : Value) : (rawGet t key : Program ε Value).Emits P :=
  fun _ => trivial

theorem emits_rawSet (t : Nat) (key v : Value) : (rawSet t key v : Program ε Unit).Emits P :=
  fun _ => trivial

theorem emits_border (t : Nat) : (border t : Program ε Nat).Emits P := fun _ => trivial

theorem emits_newTable (dense keyed : Nat) : (newTable dense keyed : Program ε Nat).Emits P := by
  intro v
  dsimp only
  split <;> trivial

theorem emits_tableCount : (tableCount : Program ε Nat).Emits P := by
  intro v
  dsimp only
  split <;> trivial

theorem emits_reserve (bytes : Nat) : (reserve bytes : Program ε Unit).Emits P := fun _ => trivial

theorem emits_invoke (f : Value) (args : List Value) : (invoke f args : Program ε (List Value)).Emits P :=
  fun _ => trivial

theorem emits_invoke₁ (f : Value) (args : List Value) : (invoke₁ f args : Program ε Value).Emits P :=
  fun _ => trivial

theorem emits_metatable? (v : Value) : (metatable? v : Program ε (Option Nat)).Emits P := by
  intro m
  dsimp only
  split <;> trivial

theorem emits_metamethod (v : Value) (event : String) : (metamethod v event : Program ε Value).Emits P := by
  refine Emits.bind (emits_metatable? v) fun m => ?_
  split
  · exact emits_rawGet _ _
  · trivial

end Program

/-! ## Operators -/

namespace Operation

open Program

variable {ε : Type} {P : ε → Prop}

theorem emits_indexFrom (v key : Value) (outermost : Bool) (fuel : Nat) :
    (indexFrom v key outermost fuel : Program ε Value).Emits P := by
  induction fuel generalizing v outermost with
  | zero => trivial
  | succ fuel ih =>
    unfold indexFrom
    -- what is done once it is known what the table itself holds
    extract_lets rest
    have hrest (found : Value) : (rest found).Emits P := by
      dsimp only [rest]
      split
      · trivial
      · refine Emits.bind (emits_metamethod _ _) fun handler => ?_
        split
        · trivial
        · trivial
        · split
          · exact emits_invoke₁ _ _
          · exact ih _ _
    cases v with
    | table id => exact Emits.bind (emits_rawGet _ _) hrest
    | _ => exact hrest .nil

theorem emits_index (v key : Value) : (index v key : Program ε Value).Emits P :=
  emits_indexFrom _ _ _ _

theorem emits_setIndexFrom (v key value : Value) (outermost : Bool) (fuel : Nat) :
    (setIndexFrom v key value outermost fuel : Program ε Unit).Emits P := by
  induction fuel generalizing v outermost with
  | zero => trivial
  | succ fuel ih =>
    unfold setIndexFrom
    extract_lets rest
    have hrest (found : Value) : (rest found).Emits P := by
      dsimp only [rest]
      split
      · exact emits_rawSet _ _ _
      · refine Emits.bind (emits_metamethod _ _) fun handler => ?_
        split
        · exact emits_rawSet _ _ _
        · trivial
        · split
          · exact Emits.bind (emits_invoke _ _) fun _ => trivial
          · exact ih _ _
    cases v with
    | table id => exact Emits.bind (emits_rawGet _ _) hrest
    | _ => exact hrest .nil

theorem emits_setIndex (v key value : Value) : (setIndex v key value : Program ε Unit).Emits P :=
  emits_setIndexFrom _ _ _ _ _

theorem emits_binaryHandler (a b : Value) (event : String) :
    (binaryHandler a b event : Program ε Value).Emits P := by
  refine Emits.bind (emits_metamethod _ _) fun handler => ?_
  split
  · exact emits_metamethod _ _
  · trivial

theorem emits_arith (o : ArithOp) (a b : Value) : (arith o a b : Program ε Value).Emits P := by
  unfold arith
  split
  · trivial
  · trivial
  · refine Emits.bind (emits_binaryHandler _ _ _) fun handler => ?_
    split
    · trivial
    · exact emits_invoke₁ _ _

theorem emits_less (a b : Value) : (less a b : Program ε Bool).Emits P := by
  unfold less
  split
  · trivial
  · refine Emits.bind (emits_binaryHandler _ _ _) fun handler => ?_
    split
    · trivial
    · exact Emits.bind (emits_invoke₁ _ _) fun _ => trivial

theorem emits_lessEq (a b : Value) : (lessEq a b : Program ε Bool).Emits P := by
  unfold lessEq
  split
  · trivial
  · refine Emits.bind (emits_binaryHandler _ _ _) fun handler => ?_
    split
    · refine Emits.bind (emits_binaryHandler _ _ _) fun handler => ?_
      split
      · trivial
      · exact Emits.bind (emits_invoke₁ _ _) fun _ => trivial
    · exact Emits.bind (emits_invoke₁ _ _) fun _ => trivial

theorem emits_equals (a b : Value) : (equals a b : Program ε Bool).Emits P := by
  unfold equals
  split
  · trivial
  · split
    · refine Emits.bind (emits_binaryHandler _ _ _) fun handler => ?_
      split
      · trivial
      · exact Emits.bind (emits_invoke₁ _ _) fun _ => trivial
    · trivial

theorem emits_length (v : Value) : (length v : Program ε Value).Emits P := by
  unfold length
  split
  · trivial
  · refine Emits.bind (emits_metamethod _ _) fun handler => ?_
    split
    · exact Emits.bind (emits_border _) fun _ => trivial
    · trivial
    · exact emits_invoke₁ _ _

theorem emits_concatReversed (fuel : Nat) (vs : List Value) :
    (concatReversed fuel vs : Program ε Value).Emits P := by
  fun_induction concatReversed fuel vs with
  | case1 => trivial
  | case2 => trivial
  | case3 => trivial
  | case4 fuel b a rest s t hs ht more joined ih => exact Emits.bind (emits_reserve _) fun _ => ih
  | case5 fuel b a rest hno ih =>
    refine Emits.bind (emits_binaryHandler _ _ _) fun handler => ?_
    split
    · trivial
    · exact Emits.bind (emits_invoke₁ _ _) fun v => ih v

theorem emits_concat (vs : List Value) : (concat vs : Program ε Value).Emits P :=
  emits_concatReversed _ _

theorem emits_display (v : Value) : (display v : Program ε ByteArray).Emits P := by
  refine Emits.bind (emits_metamethod _ _) fun handler => ?_
  split
  · trivial
  · trivial
  · split
    · refine Emits.bind (emits_metamethod _ _) fun name => ?_
      split <;> trivial
    · trivial
  · refine Emits.bind (emits_invoke₁ _ _) fun shown => ?_
    split <;> trivial

end Operation

namespace Machine

variable {ε : Type} {P : ε → Prop}

theorem emits_closeProgram (v error : Value) : (closeProgram v error : Program ε (List Value)).Emits P :=
  Program.Emits.bind (Program.emits_metamethod _ _) fun _ => Program.emits_invoke _ _

end Machine
end StrategyBench.Lua

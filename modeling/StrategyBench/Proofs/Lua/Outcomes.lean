/-
StrategyBench.Proofs.Lua.Outcomes — how a program may end, with an answer or with an error.

A run on the heap alone (`Program.Runs`) follows a program to its answer where it calls nothing. Here what the
functions that it calls may come to is given by a relation: they may answer in several ways or in none, raise
an error, and leave any heap. `Program.Ends` follows a program through all of that, so two programs are
compared by the ends that they may come to. An end of a sequence is one of its first part that fails, or one
of its second part where the first has answered (`ends_bind_iff`).

Memory is not counted in it: no step fails for want of it.
-/

import StrategyBench.Proofs.Lua.Runs

namespace StrategyBench.Lua

variable {ε α β : Type}

/-! ## Ends -/

/-- What calls of functions may come to: answers or an error, and the heap that they leave. -/
abbrev Calls := Value → List Value → Heap → Except Raise (List Value) → Heap → Prop

/-- Calls that may come to anything. -/
def anyCalls : Calls := fun _ _ _ _ _ => True

/-- Calls that come to nothing. -/
def noCalls : Calls := fun _ _ _ _ _ => False

namespace Program

/-- A program that starts on a heap may end so, with some effects. -/
inductive Ends (calls : Calls) : Program ε α → Heap → Except Raise α → Heap → List ε → Prop
  | done (a : α) (h : Heap) : Ends calls (done a) h (.ok a) h []
  | fail (e : Raise) (h : Heap) : Ends calls (fail e) h (.error e) h []
  | refused {op : HeapOp} {next : Value → Program ε α} {h : Heap} {e : Raise}
    (hrefused : Machine.refusal? h op = some e) : Ends calls (heap op next) h (.error e) h []
  | heap {op : HeapOp} {next : Value → Program ε α} {h h' : Heap} {r : Except Raise α} {es : List ε}
    (hallowed : Machine.refusal? h op = none)
    (hnext : Ends calls (next (Machine.applyOp h op).1) (Machine.applyOp h op).2 r h' es) :
    Ends calls (heap op next) h r h' es
  | raised {f : Value} {args : List Value} {next : List Value → Program ε α} {h h' : Heap} {e : Raise}
    (hcall : calls f args h (.error e) h') : Ends calls (call f args next) h (.error e) h' []
  | call {f : Value} {args vs : List Value} {next : List Value → Program ε α} {h g h' : Heap} {r : Except Raise α}
    {es : List ε} (hcall : calls f args h (.ok vs) g) (hnext : Ends calls (next vs) g r h' es) :
    Ends calls (call f args next) h r h' es
  | emit {e : ε} {next : Unit → Program ε α} {h h' : Heap} {r : Except Raise α} {es : List ε}
    (hnext : Ends calls (next ()) h r h' es) : Ends calls (emit e next) h r h' (e :: es)

section Ends

variable {calls : Calls} {p : Program ε α} {h h' : Heap} {es : List ε}

theorem ends_done_iff {a : α} {r : Except Raise α} :
    (done a : Program ε α).Ends calls h r h' es ↔ r = .ok a ∧ h' = h ∧ es = [] := by
  constructor
  · rintro ⟨⟩
    exact ⟨rfl, rfl, rfl⟩
  · rintro ⟨rfl, rfl, rfl⟩
    exact .done a h'

theorem ends_fail_iff {e : Raise} {r : Except Raise α} :
    (fail e : Program ε α).Ends calls h r h' es ↔ r = .error e ∧ h' = h ∧ es = [] := by
  constructor
  · rintro ⟨⟩
    exact ⟨rfl, rfl, rfl⟩
  · rintro ⟨rfl, rfl, rfl⟩
    exact .fail e h'

theorem ends_heap_iff {op : HeapOp} {next : Value → Program ε α} {r : Except Raise α}
    (hallowed : Machine.refusal? h op = none) :
    (heap op next).Ends calls h r h' es ↔
      (next (Machine.applyOp h op).1).Ends calls (Machine.applyOp h op).2 r h' es := by
  constructor
  · intro hend
    cases hend with
    | refused hrefused => exact nomatch hallowed.symm.trans hrefused
    | heap _ hnext => exact hnext
  · exact .heap hallowed

theorem ends_invoke_iff {f : Value} {args : List Value} {r : Except Raise (List Value)} :
    (invoke f args : Program ε (List Value)).Ends calls h r h' es ↔ calls f args h r h' ∧ es = [] := by
  constructor
  · intro hend
    cases hend with
    | raised hcall => exact ⟨hcall, rfl⟩
    | call hcall hnext =>
      obtain ⟨rfl, rfl, rfl⟩ := ends_done_iff.mp hnext
      exact ⟨hcall, rfl⟩
  · rintro ⟨hcall, rfl⟩
    cases r with
    | ok vs => exact .call hcall (.done vs h')
    | error e => exact .raised hcall

/-- Where the first part of a sequence fails nothing of the second comes. -/
theorem Ends.bind_error {f : α → Program ε β} {e : Raise} (hp : p.Ends calls h (.error e) h' es) :
    (p >>= f).Ends calls h (.error e) h' es := by
  generalize hr : (Except.error e : Except Raise α) = r at hp
  induction hp with
  | done a h => cases hr
  | fail e' h =>
    cases hr
    exact .fail e h
  | refused hrefused =>
    cases hr
    exact .refused hrefused
  | raised hcall =>
    cases hr
    exact .raised hcall
  | heap hallowed _ ih => exact .heap hallowed (ih hr)
  | call hcall _ ih => exact .call hcall (ih hr)
  | emit _ ih => exact .emit (ih hr)

theorem Ends.bind {f : α → Program ε β} {a : α} {g : Heap} {r : Except Raise β} {fs gs : List ε}
    (hp : p.Ends calls h (.ok a) g fs) (hf : (f a).Ends calls g r h' gs) :
    (p >>= f).Ends calls h r h' (fs ++ gs) := by
  generalize hr : (Except.ok a : Except Raise α) = r' at hp
  induction hp with
  | done b h =>
    cases hr
    exact hf
  | fail e h => cases hr
  | refused hrefused => cases hr
  | raised hcall => cases hr
  | heap hallowed _ ih => exact .heap hallowed (ih hf hr)
  | call hcall _ ih => exact .call hcall (ih hf hr)
  | emit _ ih => exact .emit (ih hf hr)

/-- A sequence ends where its first part fails, or where its second part ends after the first. -/
theorem ends_bind_iff {f : α → Program ε β} {r : Except Raise β} :
    (p >>= f).Ends calls h r h' es ↔
      (∃ e, p.Ends calls h (.error e) h' es ∧ r = .error e) ∨
        ∃ a g fs gs, p.Ends calls h (.ok a) g fs ∧ (f a).Ends calls g r h' gs ∧ es = fs ++ gs := by
  constructor
  · intro hend
    induction p generalizing h es with
    | done a => exact .inr ⟨a, h, [], es, .done a h, hend, rfl⟩
    | fail e =>
      obtain ⟨rfl, rfl, rfl⟩ := ends_fail_iff.mp hend
      exact .inl ⟨e, .fail e h', rfl⟩
    | heap op next ih =>
      cases hend with
      | refused hrefused => exact .inl ⟨_, .refused hrefused, rfl⟩
      | heap hallowed hnext =>
        rcases ih _ hnext with ⟨e, hfailed, rfl⟩ | ⟨a, g, fs, gs, hp, hf, rfl⟩
        · exact .inl ⟨e, .heap hallowed hfailed, rfl⟩
        · exact .inr ⟨a, g, fs, gs, .heap hallowed hp, hf, rfl⟩
    | call g args next ih =>
      cases hend with
      | raised hcall => exact .inl ⟨_, .raised hcall, rfl⟩
      | call hcall hnext =>
        rcases ih _ hnext with ⟨e, hfailed, rfl⟩ | ⟨a, g, fs, gs, hp, hf, rfl⟩
        · exact .inl ⟨e, .call hcall hfailed, rfl⟩
        · exact .inr ⟨a, g, fs, gs, .call hcall hp, hf, rfl⟩
    | emit e next ih =>
      cases hend with
      | emit hnext =>
        rcases ih () hnext with ⟨e', hfailed, rfl⟩ | ⟨a, g, fs, gs, hp, hf, rfl⟩
        · exact .inl ⟨e', .emit hfailed, rfl⟩
        · exact .inr ⟨a, g, e :: fs, gs, .emit hp, hf, rfl⟩
  · rintro (⟨e, hp, rfl⟩ | ⟨a, g, fs, gs, hp, hf, rfl⟩)
    · exact hp.bind_error
    · exact hp.bind hf

/-- A sequence that answers has gone through both of its parts. -/
theorem ends_bind_ok_iff {f : α → Program ε β} {b : β} :
    (p >>= f).Ends calls h (.ok b) h' es ↔
      ∃ a g fs gs, p.Ends calls h (.ok a) g fs ∧ (f a).Ends calls g (.ok b) h' gs ∧ es = fs ++ gs := by
  rw [ends_bind_iff]
  exact or_iff_right fun ⟨e, _, heq⟩ => nomatch heq

/-- A sequence whose first part answers so and in no other way. -/
theorem ends_bind_of_answers {f : α → Program ε β} {r : Except Raise β} {a : α} {g : Heap}
    (hp : ∀ r' k fs, p.Ends calls h r' k fs ↔ r' = .ok a ∧ k = g ∧ fs = []) :
    (p >>= f).Ends calls h r h' es ↔ (f a).Ends calls g r h' es := by
  rw [ends_bind_iff]
  constructor
  · rintro (⟨e, hfailed, rfl⟩ | ⟨b, k, fs, gs, hanswered, hf, rfl⟩)
    · cases ((hp _ _ _).mp hfailed).1
    · obtain ⟨heq, rfl, rfl⟩ := (hp _ _ _).mp hanswered
      cases heq
      exact hf
  · intro hf
    exact .inr ⟨a, g, [], es, (hp _ _ _).mpr ⟨rfl, rfl, rfl⟩, hf, rfl⟩

/-- What holds of every answer and effect holds of those of an end. -/
theorem Obeys.of_ends {P : ε → Prop} {Q : α → Prop} {a : α} (hp : p.Obeys P Q) (hend : p.Ends calls h (.ok a) h' es) :
    Q a ∧ ∀ e ∈ es, P e := by
  generalize hr : (Except.ok a : Except Raise α) = r at hend
  induction hend with
  | done b h =>
    cases hr
    exact ⟨hp, by simp⟩
  | fail e h => cases hr
  | refused hrefused => cases hr
  | raised hcall => cases hr
  | heap hallowed _ ih => exact ih (hp _) hr
  | call hcall _ ih => exact ih (hp _) hr
  | emit _ ih =>
    obtain ⟨ha, hes⟩ := ih (hp.2 ()) hr
    exact ⟨ha, List.forall_mem_cons.mpr ⟨hp.1, hes⟩⟩

/-- What emits nothing has emitted nothing where it ends. -/
theorem Emits.effects_of_ends {a : α} (hp : p.Emits noEffect) (hend : p.Ends calls h (.ok a) h' es) : es = [] :=
  List.eq_nil_iff_forall_not_mem.mpr (hp.of_ends hend).2

/-- A program of the libraries ends so wherever it runs. -/
theorem ends_lift_iff {p : Program Empty α} {r : Except Raise α} :
    (p.lift : Program ε α).Ends calls h r h' es ↔ p.Ends calls h r h' [] ∧ es = [] := by
  constructor
  · intro hend
    induction p generalizing h with
    | done a =>
      obtain ⟨rfl, rfl, rfl⟩ := ends_done_iff.mp hend
      exact ⟨.done a h', rfl⟩
    | fail e =>
      obtain ⟨rfl, rfl, rfl⟩ := ends_fail_iff.mp hend
      exact ⟨.fail e h', rfl⟩
    | heap op next ih =>
      cases hend with
      | refused hrefused => exact ⟨.refused hrefused, rfl⟩
      | heap hallowed hnext => exact ⟨.heap hallowed (ih _ hnext).1, (ih _ hnext).2⟩
    | call f args next ih =>
      cases hend with
      | raised hcall => exact ⟨.raised hcall, rfl⟩
      | call hcall hnext => exact ⟨.call hcall (ih _ hnext).1, (ih _ hnext).2⟩
    | emit e next => exact e.elim
  · rintro ⟨hend, rfl⟩
    induction p generalizing h with
    | done a =>
      obtain ⟨rfl, rfl, -⟩ := ends_done_iff.mp hend
      exact .done a h'
    | fail e =>
      obtain ⟨rfl, rfl, -⟩ := ends_fail_iff.mp hend
      exact .fail e h'
    | heap op next ih =>
      cases hend with
      | refused hrefused => exact .refused hrefused
      | heap hallowed hnext => exact .heap hallowed (ih _ hnext)
    | call f args next ih =>
      cases hend with
      | raised hcall => exact .raised hcall
      | call hcall hnext => exact .call hcall (ih _ hnext)
    | emit e next => exact e.elim

/-! ## Steps -/

theorem modifyTable_eq_self {f : Table → Table} (h : Heap) (t : Nat) (hf : ∀ t, f t = t) : h.modifyTable t f = h := by
  have hmodify : h.tables.modify t f = h.tables := by
    apply Array.ext
    · simp
    · intro i _ _
      rw [Array.getElem_modify]
      split
      · exact hf _
      · rfl
  rw [Heap.modifyTable, hmodify]

/-- Looking up a text changes nothing. -/
theorem ends_rawGet_ofString_iff {t : Nat} {key : String} {r : Except Raise Value} :
    (rawGet t (.ofString key) : Program ε Value).Ends calls h r h' es ↔
      r = .ok ((h.table t).keyed (.ofString key)) ∧ h' = h ∧ es = [] := by
  have htouch (t : Table) : t.touch (.ofString key) = t := by
    rw [Table.touch]
    · split <;> rfl
    · exact fun _ => nofun
  have hheap : h.modifyTable t (·.touch (.ofString key)) = h := modifyTable_eq_self h t htouch
  have hanswer : Machine.applyOp h (.get t (.ofString key)) = ((h.table t).keyed (.ofString key), h) :=
    congrArg ((h.table t).keyed (.ofString key), ·) hheap
  rw [rawGet, op, ends_heap_iff rfl, hanswer]
  exact ends_done_iff

theorem ends_metatable?_iff {v : Value} {r : Except Raise (Option Nat)} :
    (metatable? v : Program ε (Option Nat)).Ends calls h r h' es ↔ r = .ok (h.metatable? v) ∧ h' = h ∧ es = [] := by
  have hanswer : Machine.applyOp h (.metatable v) = (Machine.tableOr (h.metatable? v), h) := rfl
  rw [metatable?, ends_heap_iff rfl, hanswer]
  cases h.metatable? v with
  | none => exact ends_done_iff
  | some m => exact ends_done_iff

theorem ends_metamethod_iff {v : Value} {event : String} {r : Except Raise Value} :
    (metamethod v event : Program ε Value).Ends calls h r h' es ↔
      r = .ok (h.metamethod v (Bytes.ofString event)) ∧ h' = h ∧ es = [] := by
  refine (ends_bind_of_answers fun _ _ _ => ends_metatable?_iff).trans ?_
  rw [Heap.metamethod]
  cases h.metatable? v with
  | none => exact ends_done_iff
  | some m => exact ends_rawGet_ofString_iff

end Ends

end Program
end StrategyBench.Lua

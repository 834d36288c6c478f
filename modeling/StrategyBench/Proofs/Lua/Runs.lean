/-
StrategyBench.Proofs.Lua.Runs — what a program does on a heap, from start to end.

A machine takes a program step by step, with other things in between: it counts the work, and measures
the memory when that is short. A program sees none of that, so it is followed on the heap alone
(`Program.runOn`), given what the functions that it calls come to. If it calls none, the machine gets to
the same answer, the same objects and the same effects, unless it runs out of memory
(`Machine.after_runOn`).
-/

import StrategyBench.Proofs.Lua.Steps

namespace StrategyBench.Lua

variable {ε α β : Type}

/-! ## Runs -/

/-- How a program has ended that has answered. -/
structure Ended (ε α : Type) where
  answer : α
  heap : Heap
  effects : List ε

/-- What calls of functions answer, and the heap that they leave; nothing if one does not answer. -/
abbrev Callees := Value → List Value → Heap → Option (List Value × Heap)

namespace Program

/-- How a program ends on a heap; nothing if it fails, or a function that it calls does not answer. -/
def runOn (calls : Callees) : Program ε α → Heap → Option (Ended ε α)
  | done a, h => some ⟨a, h, []⟩
  | fail _, _ => none
  | heap op next, h =>
    match Machine.refusal? h op with
    | some _ => none
    | none => (next (Machine.applyOp h op).1).runOn calls (Machine.applyOp h op).2
  | call f args next, h =>
    match calls f args h with
    | some (answers, g) => (next answers).runOn calls g
    | none => none
  | emit e next, h => ((next ()).runOn calls h).map fun r => { r with effects := e :: r.effects }

/-- A run that has ended with an answer. -/
def RunsWith (calls : Callees) (p : Program ε α) (h : Heap) (a : α) (h' : Heap) (es : List ε) : Prop :=
  p.runOn calls h = some ⟨a, h', es⟩

/-- A run in which no function is called. -/
abbrev Runs (p : Program ε α) (h : Heap) (a : α) (h' : Heap) (es : List ε) : Prop :=
  p.RunsWith (fun _ _ _ => none) h a h' es

section Runs

variable {calls : Callees} {p : Program ε α} {f : α → Program ε β} {h h₁ h₂ : Heap} {a b : α} {es fs : List ε}

theorem RunsWith.unique (h₁run : p.RunsWith calls h a h₁ es) (h₂run : p.RunsWith calls h b h₂ fs) :
    a = b ∧ h₁ = h₂ ∧ es = fs := by
  have heq := Option.some.inj (h₁run.symm.trans h₂run)
  exact ⟨congrArg Ended.answer heq, congrArg Ended.heap heq, congrArg Ended.effects heq⟩

theorem runs_done : (done a : Program ε α).RunsWith calls h a h [] := rfl

theorem runs_done_iff : (done a : Program ε α).RunsWith calls h b h₁ es ↔ b = a ∧ h₁ = h ∧ es = [] := by
  constructor
  · intro hrun
    obtain ⟨rfl, rfl, rfl⟩ := runs_done.unique hrun
    exact ⟨rfl, rfl, rfl⟩
  · rintro ⟨rfl, rfl, rfl⟩
    rfl

theorem runs_fail (r : Raise) : ¬(fail r : Program ε α).RunsWith calls h a h₁ es :=
  fun hrun => nomatch hrun

theorem runs_call_iff {g : Value} {args : List Value} {next : List Value → Program ε α} :
    (call g args next).RunsWith calls h a h₁ es ↔
      ∃ answers k, calls g args h = some (answers, k) ∧ (next answers).RunsWith calls k a h₁ es := by
  unfold RunsWith
  rw [runOn]
  cases hcalls : calls g args h with
  | none => simp
  | some answered =>
    constructor
    · exact fun hrun => ⟨answered.1, answered.2, rfl, hrun⟩
    · rintro ⟨answers, k, heq, hrun⟩
      obtain rfl := Option.some.inj heq
      exact hrun

theorem runs_call (g : Value) (args : List Value) (next : List Value → Program ε α) :
    ¬(call g args next).Runs h a h₁ es :=
  fun hrun => nomatch hrun

theorem runs_heap_iff {op : HeapOp} {next : Value → Program ε α} :
    (heap op next).RunsWith calls h a h₁ es ↔
      Machine.refusal? h op = none ∧
        (next (Machine.applyOp h op).1).RunsWith calls (Machine.applyOp h op).2 a h₁ es := by
  unfold RunsWith
  rw [runOn]
  cases hrefusal : Machine.refusal? h op with
  | some r => simp
  | none => simp

theorem runs_emit_iff {e : ε} {next : Unit → Program ε α} :
    (emit e next).RunsWith calls h a h₁ es ↔ ∃ fs, es = e :: fs ∧ (next ()).RunsWith calls h a h₁ fs := by
  unfold RunsWith
  rw [runOn, Option.map_eq_some_iff]
  constructor
  · rintro ⟨r, hr, heq⟩
    cases heq
    exact ⟨r.effects, rfl, hr⟩
  · rintro ⟨fs, rfl, hr⟩
    exact ⟨_, hr, rfl⟩

/-- What a program runs into, the rest of it runs on from. -/
theorem runs_bind_iff {c : β} {gs : List ε} :
    (p >>= f).RunsWith calls h c h₂ gs ↔
      ∃ a h₁ es fs, p.RunsWith calls h a h₁ es ∧ (f a).RunsWith calls h₁ c h₂ fs ∧ gs = es ++ fs := by
  induction p generalizing h gs with
  | done a =>
    constructor
    · exact fun hrun => ⟨a, h, [], gs, runs_done, hrun, rfl⟩
    · rintro ⟨b, h₁, es, fs, hp, hf, rfl⟩
      obtain ⟨rfl, rfl, rfl⟩ := runs_done_iff.mp hp
      exact hf
  | fail r =>
    constructor
    · exact fun hrun => absurd hrun (runs_fail r)
    · rintro ⟨b, h₁, es, fs, hp, -, -⟩
      exact absurd hp (runs_fail r)
  | call g args next ih =>
    have hstep : (call g args next >>= f) = call g args fun vs => next vs >>= f := rfl
    rw [hstep, runs_call_iff]
    constructor
    · rintro ⟨answers, k, hcalls, hrun⟩
      obtain ⟨b, h₁, es, fs, hp, hf, rfl⟩ := (ih answers).mp hrun
      exact ⟨b, h₁, es, fs, runs_call_iff.mpr ⟨answers, k, hcalls, hp⟩, hf, rfl⟩
    · rintro ⟨b, h₁, es, fs, hp, hf, rfl⟩
      obtain ⟨answers, k, hcalls, hp⟩ := runs_call_iff.mp hp
      exact ⟨answers, k, hcalls, (ih answers).mpr ⟨b, h₁, es, fs, hp, hf, rfl⟩⟩
  | heap op next ih =>
    have hstep : (heap op next >>= f) = heap op fun v => next v >>= f := rfl
    rw [hstep, runs_heap_iff, ih]
    constructor
    · rintro ⟨hallowed, b, h₁, es, fs, hp, hf, rfl⟩
      exact ⟨b, h₁, es, fs, runs_heap_iff.mpr ⟨hallowed, hp⟩, hf, rfl⟩
    · rintro ⟨b, h₁, es, fs, hp, hf, rfl⟩
      obtain ⟨hallowed, hp⟩ := runs_heap_iff.mp hp
      exact ⟨hallowed, b, h₁, es, fs, hp, hf, rfl⟩
  | emit e next ih =>
    have hstep : (emit e next >>= f) = emit e fun u => next u >>= f := rfl
    rw [hstep, runs_emit_iff]
    constructor
    · rintro ⟨gs, rfl, hrun⟩
      obtain ⟨b, h₁, es, fs, hp, hf, rfl⟩ := (ih ()).mp hrun
      exact ⟨b, h₁, e :: es, fs, runs_emit_iff.mpr ⟨es, rfl, hp⟩, hf, rfl⟩
    · rintro ⟨b, h₁, es, fs, hp, hf, rfl⟩
      obtain ⟨es, rfl, hrest⟩ := runs_emit_iff.mp hp
      exact ⟨es ++ fs, rfl, (ih ()).mpr ⟨b, h₁, es, fs, hrest, hf, rfl⟩⟩

theorem RunsWith.bind {c : β} (hp : p.RunsWith calls h a h₁ es) (hf : (f a).RunsWith calls h₁ c h₂ fs) :
    (p >>= f).RunsWith calls h c h₂ (es ++ fs) :=
  runs_bind_iff.mpr ⟨a, h₁, es, fs, hp, hf, rfl⟩

/-- A run in which no function is called is one whatever calls would come to. -/
theorem runsWith_of_runs (calls : Callees) (hrun : p.Runs h a h₁ es) : p.RunsWith calls h a h₁ es := by
  induction p generalizing h es with
  | done b =>
    obtain ⟨rfl, rfl, rfl⟩ := runs_done_iff.mp hrun
    exact runs_done
  | fail r => exact absurd hrun (runs_fail r)
  | call g args next ih => exact absurd hrun (runs_call g args next)
  | heap op next ih =>
    obtain ⟨hallowed, hrest⟩ := runs_heap_iff.mp hrun
    exact runs_heap_iff.mpr ⟨hallowed, ih _ hrest⟩
  | emit e next ih =>
    obtain ⟨fs, rfl, hrest⟩ := runs_emit_iff.mp hrun
    exact runs_emit_iff.mpr ⟨fs, rfl, ih () hrest⟩

/-- What holds of every answer and effect holds of those of a run. -/
theorem Obeys.of_runs {P : ε → Prop} {Q : α → Prop} (hp : p.Obeys P Q) (hrun : p.RunsWith calls h a h₁ es) :
    Q a ∧ ∀ e ∈ es, P e := by
  induction p generalizing h es with
  | done b =>
    obtain ⟨rfl, -, rfl⟩ := runs_done_iff.mp hrun
    exact ⟨hp, by simp⟩
  | fail r => exact absurd hrun (runs_fail r)
  | call g args next ih =>
    obtain ⟨answers, k, -, hrest⟩ := runs_call_iff.mp hrun
    exact ih answers (hp answers) hrest
  | heap op next ih => exact ih _ (hp _) (runs_heap_iff.mp hrun).2
  | emit e next ih =>
    obtain ⟨fs, rfl, hrest⟩ := runs_emit_iff.mp hrun
    obtain ⟨ha, hfs⟩ := ih () (hp.2 ()) hrest
    refine ⟨ha, fun d hd => ?_⟩
    rcases List.mem_cons.mp hd with rfl | hd
    · exact hp.1
    · exact hfs d hd

end Runs

end Program

/-! ## Heaps that only count differently -/

/-- The objects of a heap; what has been counted, and how much may be, is left out. -/
def Heap.objects (h : Heap) : Heap :=
  { h with used := 0, limit := 0, threshold := 0, reserved := 0, effort := 0 }

namespace Heap

/-- No step will fail for want of memory that has been counted already. -/
def Roomy (h : Heap) : Prop := h.full = false ∨ h.limit = 0

theorem refusal?_objects (h : Heap) (op : HeapOp) : Machine.refusal? h.objects op = Machine.refusal? h op := by
  cases op <;> rfl

/-- A step on the heap looks at the objects only. -/
theorem applyOp_objects (h : Heap) (op : HeapOp) :
    (Machine.applyOp h.objects op).1 = (Machine.applyOp h op).1 ∧
      (Machine.applyOp h.objects op).2.objects = (Machine.applyOp h op).2.objects := by
  cases op with
  | newTable dense keyed =>
    obtain ⟨tables, cells, closures, stringMeta, used, limit, threshold, reserved, freeTables⟩ := h
    cases freeTables <;> exact ⟨rfl, rfl⟩
  | newCell v =>
    obtain ⟨tables, cells, closures, stringMeta, used, limit, threshold, reserved, freeTables, freeCells⟩ := h
    cases freeCells <;> exact ⟨rfl, rfl⟩
  | metatable v => cases v <;> exact ⟨rfl, rfl⟩
  | _ => exact ⟨rfl, rfl⟩

theorem refusal?_congr {h g : Heap} (hobjects : h.objects = g.objects) (op : HeapOp) :
    Machine.refusal? h op = Machine.refusal? g op := by
  rw [← refusal?_objects h, hobjects, refusal?_objects]

theorem applyOp_congr {h g : Heap} (hobjects : h.objects = g.objects) (op : HeapOp) :
    (Machine.applyOp h op).1 = (Machine.applyOp g op).1 ∧
      (Machine.applyOp h op).2.objects = (Machine.applyOp g op).2.objects := by
  obtain ⟨hanswer, hheap⟩ := applyOp_objects h op
  obtain ⟨ganswer, gheap⟩ := applyOp_objects g op
  rw [← hanswer, ← hheap, ← ganswer, ← gheap, hobjects]
  exact ⟨rfl, rfl⟩

end Heap

/-! ## Machines -/

namespace Machine

variable {lib : Library ε} {m : Machine ε} {p : Purpose}

/-- A program is being run, and it has run so far. -/
structure At (m : Machine ε) (p : Purpose) (rest : Program ε (List Value)) (h : Heap) (waiting : List (Waiting ε))
    (effects : List ε) : Prop where
  running : m.running = .program p rest
  heap : m.heap.objects = h.objects
  waiting : m.waiting = waiting
  effects : m.effects = effects

/-- What runs has been stopped for want of memory. -/
def OutOfMemory (m : Machine ε) : Prop := m.running = .failed .memory ∨ m.running = .failed Fault.memory.atHost

/-- An error has been raised from a program that has run so far. -/
def StoppedBy (r : Raise) (m : Machine ε) (p : Purpose) (h : Heap) (waiting : List (Waiting ε)) (effects : List ε) :
    Prop :=
  ∃ (m' : Machine ε) (rest : Program ε (List Value)), m'.At p rest h waiting effects ∧ m = m'.raise r

theorem StoppedBy.outOfMemory {h : Heap} {waiting : List (Waiting ε)} {effects : List ε}
    (hm : m.StoppedBy .memory p h waiting effects) : m.OutOfMemory := by
  obtain ⟨m', rest, hat, rfl⟩ := hm
  rw [raise, stop, hat.running]
  dsimp only
  split
  · exact .inr rfl
  · exact .inl rfl

theorem StoppedBy.grown {r : Raise} {h : Heap} {waiting : List (Waiting ε)} {effects : List ε} {P : ε → Prop}
    (hm : m.StoppedBy r p h waiting effects) : Grown P m waiting effects := by
  obtain ⟨m', rest, hat, rfl⟩ := hm
  have hgrown : Grown P (m'.raise r) m'.waiting m'.effects := grown_raise m' r
  rwa [hat.waiting, hat.effects] at hgrown

theorem limit_measure (m : Machine ε) (lib : Library ε) : (m.measure lib).heap.limit = m.heap.limit := by
  rw [measure]
  dsimp only
  split <;> rfl

theorem threshold_measure (m : Machine ε) (lib : Library ε) (hlimit : m.heap.limit ≠ 0) :
    (m.measure lib).heap.threshold = m.heap.limit := by
  rw [measure]
  dsimp only
  split <;> exact if_neg hlimit

theorem roomy_measure (hunder : (m.measure lib).heap.overLimit = false) : (m.measure lib).heap.Roomy := by
  by_cases hlimit : m.heap.limit = 0
  · exact .inr (by rw [limit_measure, hlimit])
  · refine .inl ?_
    simpa [Heap.full, Heap.overLimit, limit_measure, threshold_measure m lib hlimit, hlimit] using hunder

section At

variable {rest : Program ε (List Value)} {h : Heap} {waiting : List (Waiting ε)} {effects : List ε}

/-- While a program runs nothing is dropped. -/
theorem At.measure (hat : m.At p rest h waiting effects) (lib : Library ε) :
    (m.measure lib).At p rest h waiting effects where
  running := hat.running
  heap := by
    have hquiet : m.isQuiet = false := by simp [isQuiet, hat.running]
    rw [← hat.heap, Machine.measure, hquiet]
    rfl
  waiting := hat.waiting
  effects := hat.effects

/-- A step of a machine that runs a program is one of the program, unless memory has run out. -/
theorem At.step (hat : m.At p rest h waiting effects) (lib : Library ε) :
    (¬m.heap.Roomy ∧ (m.step lib).StoppedBy .memory p h waiting effects) ∨
      ∃ m' : Machine ε, m'.At p rest h waiting effects ∧ m'.heap.Roomy ∧
        m.step lib = advance lib { m' with running := .done [] } p rest := by
  have hproceed {m' : Machine ε} (hat : m'.At p rest h waiting effects) :
      m'.proceed lib = advance lib { m' with running := .done [] } p rest := by
    rw [proceed, hat.running]
  have hmeasured := hat.measure lib
  rw [Machine.step]
  split
  · rename_i hfull
    dsimp only
    split
    · rename_i hover
      refine .inl ⟨fun hroomy => ?_, _, _, hmeasured, by rw [Machine.outOfMemory, hmeasured.running]⟩
      rcases hroomy with hroom | hlimit
      · simp [hroom] at hfull
      · simp [Heap.overLimit, limit_measure, hlimit] at hover
    · rename_i hunder
      exact .inr ⟨_, hmeasured, roomy_measure (by simpa using hunder), hproceed hmeasured⟩
  · rename_i hroom
    refine .inr ⟨_, hat, .inl ?_, hproceed hat⟩
    simpa [isWorking, hat.running] using hroom

theorem At.reserveFor (hat : m.At p rest h waiting effects) {lib : Library ε} {bytes : Nat} {m' : Machine ε}
    (hm : Machine.reserveFor lib m bytes = some m') : m'.At p rest h waiting effects := by
  unfold Machine.reserveFor at hm
  by_cases hfull : m.heap.threshold < m.heap.used + bytes
  · have hmeasured := hat.measure lib
    simp only [hfull, if_true] at hm
    split at hm
    · cases hm
    · obtain rfl := Option.some.inj hm
      exact ⟨hmeasured.running, hmeasured.heap, hmeasured.waiting, hmeasured.effects⟩
  · simp only [hfull, if_false] at hm
    split at hm
    · cases hm
    · obtain rfl := Option.some.inj hm
      exact ⟨hat.running, hat.heap, hat.waiting, hat.effects⟩

/-- A step on the heap that is not refused, taken by a machine. -/
theorem At.heap_step {op : HeapOp} {next : Value → Program ε (List Value)}
    (hat : m.At p (.heap op next) h waiting effects) (hallowed : refusal? h op = none) (lib : Library ε) :
    (m.step lib).StoppedBy .memory p h waiting effects ∨
      (m.step lib).At p (next (applyOp h op).1) (applyOp h op).2 waiting effects := by
  rcases hat.step lib with ⟨-, hout⟩ | ⟨m, hat, -, hstep⟩
  · exact .inl hout
  · rw [hstep]
    have hrefusal : refusal? m.heap op = none := (Heap.refusal?_congr hat.heap op).trans hallowed
    obtain ⟨hanswer, hheap⟩ := Heap.applyOp_congr (h := m.heap.spend Heap.programSteps) (g := h) hat.heap op
    cases op with
    | reserve bytes =>
      have hstart : ({ m with running := .program p (.done []) } : Machine ε).At p (.done []) h waiting effects :=
        ⟨rfl, hat.heap, hat.waiting, hat.effects⟩
      rw [advance]
      split
      · rename_i m' hm'
        have hat' := hstart.reserveFor hm'
        exact .inr ⟨rfl, hat'.heap, hat'.waiting, hat'.effects⟩
      · exact .inl ⟨_, _, hstart, rfl⟩
    | _ =>
      right
      unfold advance
      dsimp only
      rw [hrefusal]
      refine ⟨?_, hheap, hat.waiting, hat.effects⟩
      rw [← hanswer]

/-- A step on the heap that is refused stops the program. -/
theorem At.refused_step {op : HeapOp} {next : Value → Program ε (List Value)}
    (hat : m.At p (.heap op next) h waiting effects) {r : Raise} (hrefused : refusal? h op = some r)
    (lib : Library ε) : ∃ r, (m.step lib).StoppedBy r p h waiting effects := by
  rcases hat.step lib with ⟨-, hout⟩ | ⟨m, hat, -, hstep⟩
  · exact ⟨_, hout⟩
  · rw [hstep]
    have hrefusal : refusal? m.heap op = some r := (Heap.refusal?_congr hat.heap op).trans hrefused
    have hstart : ({ m with running := .program p (.done []) } : Machine ε).At p (.done []) h waiting effects :=
      ⟨rfl, hat.heap, hat.waiting, hat.effects⟩
    refine ⟨r, _, _, hstart, ?_⟩
    cases op with
    | reserve bytes => cases hrefusal
    | _ =>
      unfold advance
      dsimp only
      rw [hrefusal]

theorem At.fail_step {r : Raise} (hat : m.At p (.fail r) h waiting effects) (lib : Library ε) :
    ∃ r, (m.step lib).StoppedBy r p h waiting effects := by
  rcases hat.step lib with ⟨-, hout⟩ | ⟨m, hat, -, hstep⟩
  · exact ⟨_, hout⟩
  · rw [hstep]
    exact ⟨r, { m with running := .program p (.done []) }, _, ⟨rfl, hat.heap, hat.waiting, hat.effects⟩, rfl⟩

theorem At.emit_step {e : ε} {next : Unit → Program ε (List Value)}
    (hat : m.At p (.emit e next) h waiting effects) (lib : Library ε) :
    (m.step lib).StoppedBy .memory p h waiting effects ∨
      (m.step lib).At p (next ()) h waiting (e :: effects) ∧ (m.step lib).heap.Roomy := by
  rcases hat.step lib with ⟨-, hout⟩ | ⟨m, hat, hroomy, hstep⟩
  · exact .inl hout
  · rw [hstep]
    exact .inr ⟨⟨rfl, hat.heap, hat.waiting, congrArg (e :: ·) hat.effects⟩, hroomy⟩

end At

/-- A machine gets to the answer of a program as the program does on the heap alone, unless it runs out of
memory on the way. -/
theorem after_runOn (lib : Library ε) {rest : Program ε (List Value)} {h h' : Heap} {waiting : List (Waiting ε)}
    {effects es : List ε} {answers : List Value} (hat : m.At p rest h waiting effects)
    (hrun : rest.Runs h answers h' es) :
    ∃ n, (m.after lib n).OutOfMemory ∨ (m.after lib n).At p (.done answers) h' waiting (es.reverse ++ effects) := by
  induction rest generalizing m h effects es with
  | done results =>
    obtain ⟨rfl, rfl, rfl⟩ := Program.runs_done_iff.mp hrun
    exact ⟨0, .inr hat⟩
  | fail r => exact absurd hrun (Program.runs_fail r)
  | call g args next => exact absurd hrun (Program.runs_call g args next)
  | heap op next ih =>
    obtain ⟨hallowed, hnext⟩ := Program.runs_heap_iff.mp hrun
    rcases hat.heap_step hallowed lib with hout | hstep
    · exact ⟨1, .inl hout.outOfMemory⟩
    · obtain ⟨n, hn⟩ := ih _ hstep hnext
      exact ⟨n + 1, hn⟩
  | emit e next ih =>
    obtain ⟨fs, rfl, hnext⟩ := Program.runs_emit_iff.mp hrun
    rcases hat.emit_step lib with hout | ⟨hstep, -⟩
    · exact ⟨1, .inl hout.outOfMemory⟩
    · obtain ⟨n, hn⟩ := ih _ hstep hnext
      refine ⟨n + 1, ?_⟩
      rw [List.reverse_cons, List.append_assoc, List.singleton_append]
      exact hn

end Machine
end StrategyBench.Lua

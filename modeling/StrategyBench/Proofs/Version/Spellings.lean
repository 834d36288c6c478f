/-
StrategyBench.Proofs.Version.Spellings — which texts are read as a date and a number.

`Spells` tells the spellings of a code: blanks may stand before each number of the date, a year may
have a sign, a number may have zeros before it and fewer digits than there is room for, where a blank
or the end stands behind them, and the sequence number may have a `+`. These are the codes that are
read, and they are read as what they spell (`read?_eq_some_iff`), one lemma for each reader.
-/

import Mathlib.Data.List.TakeDrop
import Mathlib.Data.List.TakeWhile
import StrategyBench.Proofs.Version.Numerals

namespace StrategyBench.VersionCode

open Text (isBlank)

variable {cs rest text : List Char} {code : String} {date : Date} {year : Int} {n width : Nat}

/-! ## Spellings -/

/-- A number of at most `width` digits. -/
def SpellsNumber (width n : Nat) (text : List Char) : Prop :=
  ∃ zeros, text = numeral zeros n ∧ text.length ≤ width

/-- A year of at most four digits, or one with a sign. -/
inductive SpellsYear : Int → List Char → Prop
  | unsigned {n : Nat} {text : List Char} : SpellsNumber 4 n text → SpellsYear n text
  | plus (zeros n : Nat) : SpellsYear n ('+' :: numeral zeros n)
  | minus (zeros n : Nat) : SpellsYear (-n) ('-' :: numeral zeros n)

/-- Four digits: all that a year without a sign may have. -/
def FourDigits (text : List Char) : Prop := text.length = 4 ∧ ∀ c ∈ text, c.isDigit = true

/-- The numbers of a date, each with blanks before it. Without a blank behind it a number has all the digits
that it may have, or else it would go on. -/
inductive SpellsDate (date : Date) : List Char → Prop
  | parts {beforeYear year beforeMonth month beforeDay day : List Char}
      (hbeforeYear : ∀ c ∈ beforeYear, isBlank c = true) (hyear : SpellsYear date.year year)
      (hyearEnds : FourDigits year ∨ beforeMonth ≠ [])
      (hbeforeMonth : ∀ c ∈ beforeMonth, isBlank c = true) (hmonth : SpellsNumber 2 date.month month)
      (hmonthEnds : month.length = 2 ∨ beforeDay ≠ [])
      (hbeforeDay : ∀ c ∈ beforeDay, isBlank c = true) (hday : SpellsNumber 2 date.day day) :
      SpellsDate date (beforeYear ++ (year ++ (beforeMonth ++ (month ++ (beforeDay ++ day)))))

/-- A number from one to the greatest of 32 bits, a `+` before it or not. -/
def SpellsSequence (n : Nat) (text : List Char) : Prop :=
  1 ≤ n ∧ n ≤ maxSequence ∧ ∃ zeros, text = numeral zeros n ∨ text = '+' :: numeral zeros n

/-- A date of the calendar in eight bytes and a number, with a point between. -/
def Spells (code : String) (date : Date) (n : Nat) : Prop :=
  ∃ dateText numberText, code.toList = 'v' :: (dateText ++ '.' :: numberText) ∧ utf8Length dateText = 8 ∧
    date.valid = true ∧ SpellsDate date dateText ∧ SpellsSequence n numberText

/-! ## Characters -/

theorem isBlank_eq_false_of_isDigit {c : Char} (h : c.isDigit = true) : isBlank c = false := by
  have hrange : 48 ≤ c.toNat ∧ c.toNat ≤ 57 := Char.isDigit_iff_toNat.mp h
  simp only [isBlank, Bool.or_eq_false_iff, Bool.and_eq_false_iff, decide_eq_false_iff_not, beq_eq_false_iff_ne]
  omega

theorem isDigit_eq_false_of_isBlank {c : Char} (h : isBlank c = true) : c.isDigit = false := by
  cases hd : c.isDigit with
  | false => rfl
  | true => rw [isBlank_eq_false_of_isDigit hd] at h; cases h

theorem SpellsNumber.isDigit (h : SpellsNumber width n text) : ∀ c ∈ text, c.isDigit = true := by
  obtain ⟨zeros, rfl, -⟩ := h
  exact fun c hc => isDigit_of_mem_numeral hc

theorem SpellsNumber.ne_nil (h : SpellsNumber width n text) : text ≠ [] := by
  obtain ⟨zeros, rfl, -⟩ := h
  exact numeral_ne_nil zeros n

/-! ## Spans -/

/-- No character of the class comes next. -/
def StopsAt (p : Char → Bool) (rest : List Char) : Prop := ∀ c ∈ rest.head?, p c = false

theorem stopsAt_of_head {p : Char → Bool} {xs : List Char} (hne : xs ≠ []) (h : ∀ c ∈ xs, p c = false)
    (rest : List Char) : StopsAt p (xs ++ rest) := by
  cases xs with
  | nil => exact absurd rfl hne
  | cons x xs =>
    intro c hc
    obtain rfl : x = c := by simpa using hc
    exact h x List.mem_cons_self

theorem takeWhile_append_of_stopsAt {p : Char → Bool} {xs : List Char} (h : ∀ c ∈ xs, p c = true)
    (hrest : StopsAt p rest) : (xs ++ rest).takeWhile p = xs ∧ (xs ++ rest).dropWhile p = rest := by
  rw [List.takeWhile_append_of_pos h, List.dropWhile_append_of_pos h]
  cases rest with
  | nil => simp
  | cons c rest =>
    have hc : ¬p c = true := by simpa using hrest c rfl
    rw [List.takeWhile_cons_of_neg hc, List.dropWhile_cons_of_neg hc, List.append_nil]
    exact ⟨rfl, rfl⟩

theorem stopsAt_dropWhile (p : Char → Bool) (cs : List Char) : StopsAt p (cs.dropWhile p) := by
  intro c hc
  have h := List.head?_dropWhile_not p cs
  rwa [Option.mem_def.mp hc] at h

theorem span_eq_iff {p : Char → Bool} {xs : List Char} :
    cs.span p = (xs, rest) ↔ cs = xs ++ rest ∧ (∀ c ∈ xs, p c = true) ∧ StopsAt p rest := by
  rw [List.span_eq_takeWhile_dropWhile, Prod.mk.injEq]
  constructor
  · rintro ⟨rfl, rfl⟩
    exact ⟨List.takeWhile_append_dropWhile.symm, fun c hc => List.mem_takeWhile_imp hc, stopsAt_dropWhile p cs⟩
  · rintro ⟨rfl, hxs, hrest⟩
    exact takeWhile_append_of_stopsAt hxs hrest

/-! ## Readers -/

/-- The digits that a number is read from: those that come next, as many as there is room for. -/
def digitsAhead (width : Nat) (cs : List Char) : List Char := (cs.takeWhile Char.isDigit).take width

theorem digitsAhead_append (h : SpellsNumber width n text) (hends : text.length = width ∨ StopsAt Char.isDigit rest) :
    digitsAhead width (text ++ rest) = text := by
  obtain ⟨-, -, hlength⟩ := id h
  rw [digitsAhead]
  rcases hends with rfl | hstops
  · rw [List.takeWhile_append_of_pos h.isDigit, List.take_left]
  · rw [(takeWhile_append_of_stopsAt h.isDigit hstops).1, List.take_of_length_le hlength]

theorem digitsAhead_spec (width : Nat) (cs : List Char) :
    digitsAhead width cs ++ cs.drop (digitsAhead width cs).length = cs ∧
      (∀ c ∈ digitsAhead width cs, c.isDigit = true) ∧ (digitsAhead width cs).length ≤ width ∧
      ((digitsAhead width cs).length = width ∨
        StopsAt Char.isDigit (cs.drop (digitsAhead width cs).length)) := by
  have hdigits : ∀ c ∈ cs.takeWhile Char.isDigit, c.isDigit = true := fun c hc => List.mem_takeWhile_imp hc
  have hprefix : digitsAhead width cs <+: cs := (List.take_prefix _ _).trans (List.takeWhile_prefix _)
  have hrest := List.prefix_iff_eq_append.mp hprefix
  refine ⟨hrest, fun c hc => hdigits c (List.mem_of_mem_take hc), List.length_take_le _ _, ?_⟩
  by_cases hroom : width ≤ (cs.takeWhile Char.isDigit).length
  · exact .inl (List.length_take_of_le hroom)
  · -- there is room left, so the digits end where they are read to
    have hall : digitsAhead width cs = cs.takeWhile Char.isDigit := List.take_of_length_le (by omega)
    rw [hall] at hrest ⊢
    have hsplit := List.takeWhile_append_dropWhile (p := Char.isDigit) (l := cs)
    rw [List.append_cancel_left (hrest.trans hsplit.symm)]
    exact .inr (stopsAt_dropWhile _ _)

theorem readNumber_eq (width : Nat) (cs : List Char) : readNumber width cs =
    if (digitsAhead width (cs.dropWhile isBlank)).isEmpty then none
    else some (numberOf (digitsAhead width (cs.dropWhile isBlank)),
      (cs.dropWhile isBlank).drop (digitsAhead width (cs.dropWhile isBlank)).length) := by
  unfold readNumber digits
  simp only [List.span_eq_takeWhile_dropWhile]
  rfl

theorem readNumber_eq_some_iff : readNumber width cs = some (n, rest) ↔
    ∃ blanks text, cs = blanks ++ (text ++ rest) ∧ (∀ c ∈ blanks, isBlank c = true) ∧
      SpellsNumber width n text ∧ (text.length = width ∨ StopsAt Char.isDigit rest) := by
  rw [readNumber_eq]
  constructor
  · intro h
    obtain ⟨hsplit, hdigits, hlength, hends⟩ := digitsAhead_spec width (cs.dropWhile isBlank)
    generalize digitsAhead width (cs.dropWhile isBlank) = text at *
    by_cases hne : text = []
    · rw [if_pos (List.isEmpty_iff.mpr hne)] at h
      cases h
    · rw [if_neg (mt List.isEmpty_iff.mp hne)] at h
      obtain ⟨rfl, rfl⟩ := Prod.mk.inj (Option.some.inj h)
      obtain ⟨zeros, hnumeral⟩ := exists_numeral hne hdigits
      refine ⟨cs.takeWhile isBlank, text, ?_, fun c hc => List.mem_takeWhile_imp hc, ⟨zeros, hnumeral, hlength⟩, hends⟩
      rw [hsplit, List.takeWhile_append_dropWhile]
  · rintro ⟨blanks, text, rfl, hblanks, htext, hends⟩
    have hstops : StopsAt isBlank (text ++ rest) :=
      stopsAt_of_head htext.ne_nil (fun c hc => isBlank_eq_false_of_isDigit (htext.isDigit c hc)) rest
    rw [(takeWhile_append_of_stopsAt hblanks hstops).2, digitsAhead_append htext hends,
      if_neg (mt List.isEmpty_iff.mp htext.ne_nil), List.drop_left]
    obtain ⟨zeros, rfl, -⟩ := htext
    rw [numberOf_numeral]

/-- The digits behind a sign, as many as there are. -/
theorem signed_eq_some_iff (value : Nat → Int) :
    (if (digits cs).1.isEmpty then none else some (value (numberOf (digits cs).1), (digits cs).2)) =
        some (year, rest) ↔
      ∃ zeros n, value n = year ∧ cs = numeral zeros n ++ rest ∧ StopsAt Char.isDigit rest := by
  cases hdigits : digits cs with
  | mk ds tail =>
    obtain ⟨hsplit, hds, hstops⟩ := span_eq_iff.mp hdigits
    constructor
    · intro h
      by_cases hne : ds = []
      · rw [if_pos (List.isEmpty_iff.mpr hne)] at h
        cases h
      · rw [if_neg (mt List.isEmpty_iff.mp hne)] at h
        obtain ⟨rfl, rfl⟩ := Prod.mk.inj (Option.some.inj h)
        obtain ⟨zeros, hnumeral⟩ := exists_numeral hne hds
        exact ⟨zeros, numberOf ds, rfl, by rw [hsplit, ← hnumeral], hstops⟩
    · rintro ⟨zeros, n, rfl, rfl, hrest⟩
      have hspan : digits (numeral zeros n ++ rest) = (numeral zeros n, rest) :=
        span_eq_iff.mpr ⟨rfl, fun c hc => isDigit_of_mem_numeral hc, hrest⟩
      obtain ⟨rfl, rfl⟩ := Prod.mk.inj (hspan.symm.trans hdigits)
      rw [if_neg (mt List.isEmpty_iff.mp (numeral_ne_nil zeros n)), numberOf_numeral]

theorem SpellsYear.stopsAt_isBlank (h : SpellsYear year text) (rest : List Char) : StopsAt isBlank (text ++ rest) := by
  cases h with
  | unsigned h => exact stopsAt_of_head h.ne_nil (fun c hc => isBlank_eq_false_of_isDigit (h.isDigit c hc)) rest
  | plus zeros n => rintro _ ⟨⟩; rfl
  | minus zeros n => rintro _ ⟨⟩; rfl

theorem readYear_minus {tail : List Char} (h : cs.dropWhile isBlank = '-' :: tail) : readYear cs =
    if (digits tail).1.isEmpty then none else some (-(numberOf (digits tail).1 : Int), (digits tail).2) := by
  simp only [readYear, h]

theorem readYear_plus {tail : List Char} (h : cs.dropWhile isBlank = '+' :: tail) : readYear cs =
    if (digits tail).1.isEmpty then none else some ((numberOf (digits tail).1 : Int), (digits tail).2) := by
  simp only [readYear, h]

theorem readYear_unsigned (hminus : ∀ tail, cs.dropWhile isBlank ≠ '-' :: tail)
    (hplus : ∀ tail, cs.dropWhile isBlank ≠ '+' :: tail) :
    readYear cs = (readNumber 4 (cs.dropWhile isBlank)).map fun p => ((p.1 : Int), p.2) := by
  simp only [readYear]

theorem readYear_eq_some_iff : readYear cs = some (year, rest) ↔
    ∃ blanks text, cs = blanks ++ (text ++ rest) ∧ (∀ c ∈ blanks, isBlank c = true) ∧ SpellsYear year text ∧
      (FourDigits text ∨ StopsAt Char.isDigit rest) := by
  constructor
  · intro h
    have hsplit : cs.takeWhile isBlank ++ cs.dropWhile isBlank = cs := List.takeWhile_append_dropWhile
    have hblanks : ∀ c ∈ cs.takeWhile isBlank, isBlank c = true := fun c hc => List.mem_takeWhile_imp hc
    by_cases hminus : ∃ tail, cs.dropWhile isBlank = '-' :: tail
    · obtain ⟨tail, htail⟩ := hminus
      rw [readYear_minus htail, signed_eq_some_iff fun n => -(n : Int)] at h
      obtain ⟨zeros, n, rfl, rfl, hstops⟩ := h
      exact ⟨_, _, by rw [List.cons_append, ← htail, hsplit], hblanks, .minus zeros n, .inr hstops⟩
    by_cases hplus : ∃ tail, cs.dropWhile isBlank = '+' :: tail
    · obtain ⟨tail, htail⟩ := hplus
      rw [readYear_plus htail, signed_eq_some_iff fun n => (n : Int)] at h
      obtain ⟨zeros, n, rfl, rfl, hstops⟩ := h
      exact ⟨_, _, by rw [List.cons_append, ← htail, hsplit], hblanks, .plus zeros n, .inr hstops⟩
    · rw [readYear_unsigned (not_exists.mp hminus) (not_exists.mp hplus)] at h
      obtain ⟨⟨n, tail⟩, hnumber, heq⟩ := Option.map_eq_some_iff.mp h
      obtain ⟨rfl, rfl⟩ := Prod.mk.inj heq
      obtain ⟨blanks, text, hrest, hmore, htext, hends⟩ := readNumber_eq_some_iff.mp hnumber
      refine ⟨cs.takeWhile isBlank ++ blanks, text, ?_, ?_, .unsigned htext, ?_⟩
      · rw [List.append_assoc, ← hrest, hsplit]
      · exact fun c hc => (List.mem_append.mp hc).elim (hblanks c) (hmore c)
      · exact hends.imp_left fun hlength => ⟨hlength, htext.isDigit⟩
  · rintro ⟨blanks, text, rfl, hblanks, hyear, hends⟩
    have hdrop : (blanks ++ (text ++ rest)).dropWhile isBlank = text ++ rest :=
      (takeWhile_append_of_stopsAt hblanks (hyear.stopsAt_isBlank rest)).2
    cases hyear with
    | unsigned htext =>
      have hsign : ∀ sign : Char, sign.isDigit = false → ∀ tail, text ++ rest ≠ sign :: tail := by
        intro sign hsign tail heq
        obtain ⟨c, ds, rfl⟩ := List.exists_cons_of_ne_nil htext.ne_nil
        obtain ⟨rfl, -⟩ := List.cons.inj heq
        exact not_mem_of_digits htext.isDigit hsign List.mem_cons_self
      rw [readYear_unsigned (by rw [hdrop]; exact hsign '-' rfl) (by rw [hdrop]; exact hsign '+' rfl), hdrop]
      have hread : readNumber 4 (text ++ rest) = some (_, rest) :=
        readNumber_eq_some_iff.mpr ⟨[], text, rfl, by simp, htext, hends.imp_left And.left⟩
      rw [hread]
      rfl
    | plus zeros n =>
      have hstops : StopsAt Char.isDigit rest :=
        hends.resolve_left fun h => not_mem_of_digits h.2 rfl List.mem_cons_self
      rw [readYear_plus hdrop]
      exact (signed_eq_some_iff fun n => (n : Int)).mpr ⟨zeros, n, rfl, rfl, hstops⟩
    | minus zeros n =>
      have hstops : StopsAt Char.isDigit rest :=
        hends.resolve_left fun h => not_mem_of_digits h.2 rfl List.mem_cons_self
      rw [readYear_minus hdrop]
      exact (signed_eq_some_iff fun n => -(n : Int)).mpr ⟨zeros, n, rfl, rfl, hstops⟩

/-! ## Dates -/

/-- Behind a number there is a blank, or the next number. -/
theorem stopsAt_isDigit_iff {blanks next : List Char} (hblanks : ∀ c ∈ blanks, isBlank c = true)
    (hnext : SpellsNumber width n next) (rest : List Char) :
    StopsAt Char.isDigit (blanks ++ (next ++ rest)) ↔ blanks ≠ [] := by
  constructor
  · rintro h rfl
    obtain ⟨c, tail, rfl⟩ := List.exists_cons_of_ne_nil hnext.ne_nil
    have hdigit := hnext.isDigit c List.mem_cons_self
    rw [h c rfl] at hdigit
    cases hdigit
  · intro hne
    exact stopsAt_of_head hne (fun c hc => isDigit_eq_false_of_isBlank (hblanks c hc)) _

theorem of?_eq_some_iff {month day : Nat} :
    Date.of? year month day = some date ↔ date = ⟨year, month, day⟩ ∧ date.valid = true := by
  simp only [Date.of?]
  constructor
  · intro h
    split at h
    · rename_i hvalid
      obtain rfl := Option.some.inj h
      exact ⟨rfl, hvalid⟩
    · cases h
  · rintro ⟨rfl, hvalid⟩
    rw [if_pos hvalid]

theorem readDate_eq_some_iff : readDate cs = some date ↔ date.valid = true ∧ SpellsDate date cs := by
  unfold readDate
  simp only [Option.bind_eq_bind, Option.bind_eq_some_iff, Prod.exists]
  constructor
  · rintro ⟨year, cs₁, hyear, month, cs₂, hmonth, day, cs₃, hday, h⟩
    obtain ⟨beforeYear, yearText, rfl, hbeforeYear, hyearText, hyearEnds⟩ := readYear_eq_some_iff.mp hyear
    obtain ⟨beforeMonth, monthText, rfl, hbeforeMonth, hmonthText, hmonthEnds⟩ := readNumber_eq_some_iff.mp hmonth
    obtain ⟨beforeDay, dayText, rfl, hbeforeDay, hdayText, -⟩ := readNumber_eq_some_iff.mp hday
    by_cases hend : cs₃ = []
    · subst hend
      rw [if_pos List.isEmpty_nil] at h
      obtain ⟨rfl, hvalid⟩ := of?_eq_some_iff.mp h
      rw [stopsAt_isDigit_iff hbeforeMonth hmonthText] at hyearEnds
      rw [stopsAt_isDigit_iff hbeforeDay hdayText] at hmonthEnds
      rw [List.append_nil]
      exact ⟨hvalid, .parts hbeforeYear hyearText hyearEnds hbeforeMonth hmonthText hmonthEnds hbeforeDay hdayText⟩
    · rw [if_neg (mt List.isEmpty_iff.mp hend)] at h
      cases h
  · rintro ⟨hvalid, h⟩
    cases h with
    | parts hbeforeYear hyear hyearEnds hbeforeMonth hmonth hmonthEnds hbeforeDay hday =>
      rename_i beforeYear year beforeMonth month beforeDay day
      refine ⟨date.year, beforeMonth ++ (month ++ (beforeDay ++ day)), ?_, date.month, beforeDay ++ day, ?_, date.day,
        [], ?_, ?_⟩
      · refine readYear_eq_some_iff.mpr ⟨beforeYear, year, rfl, hbeforeYear, hyear, ?_⟩
        rwa [stopsAt_isDigit_iff hbeforeMonth hmonth]
      · refine readNumber_eq_some_iff.mpr ⟨beforeMonth, month, rfl, hbeforeMonth, hmonth, ?_⟩
        rw [← List.append_nil day, stopsAt_isDigit_iff hbeforeDay hday]
        exact hmonthEnds
      · refine readNumber_eq_some_iff.mpr ⟨beforeDay, day, by rw [List.append_nil], hbeforeDay, hday, .inr ?_⟩
        rintro c ⟨⟩
      · rw [if_pos List.isEmpty_nil]
        exact of?_eq_some_iff.mpr ⟨rfl, hvalid⟩

/-! ## Codes -/

/-- The sequence number of digits without a sign. -/
theorem unsigned_eq_some_iff : (if cs.isEmpty || !cs.all Char.isDigit then none
      else if 1 ≤ numberOf cs ∧ numberOf cs ≤ maxSequence then some (numberOf cs) else none) = some n ↔
    1 ≤ n ∧ n ≤ maxSequence ∧ ∃ zeros, cs = numeral zeros n := by
  have hguard : (cs.isEmpty || !cs.all Char.isDigit) = true ↔ cs = [] ∨ ¬∀ c ∈ cs, c.isDigit = true := by
    rw [Bool.or_eq_true, List.isEmpty_iff, Bool.not_eq_true', ← Bool.not_eq_true, List.all_eq_true]
  rw [ite_congr (propext hguard) (fun _ => rfl) fun _ => rfl]
  constructor
  · intro h
    split at h
    · cases h
    · rename_i hdigits
      obtain ⟨hne, hall⟩ := not_or.mp hdigits
      split at h
      · rename_i hrange
        obtain rfl := Option.some.inj h
        exact ⟨hrange.1, hrange.2, exists_numeral hne (not_not.mp hall)⟩
      · cases h
  · rintro ⟨hlow, hhigh, zeros, rfl⟩
    have hall : ∀ c ∈ numeral zeros n, c.isDigit = true := fun c hc => isDigit_of_mem_numeral hc
    rw [if_neg (not_or.mpr ⟨numeral_ne_nil zeros n, not_not.mpr hall⟩), numberOf_numeral, if_pos ⟨hlow, hhigh⟩]

theorem numeral_ne_plus (zeros n : Nat) (tail : List Char) : numeral zeros n ≠ '+' :: tail := by
  intro heq
  exact not_mem_of_digits (fun _ hc => isDigit_of_mem_numeral hc) rfl (heq ▸ List.mem_cons_self)

theorem readSequence_eq_some_iff : readSequence cs = some n ↔ SpellsSequence n cs := by
  by_cases hplus : ∃ tail, cs = '+' :: tail
  · obtain ⟨tail, rfl⟩ := hplus
    refine Iff.trans unsigned_eq_some_iff ?_
    refine and_congr_right fun _ => and_congr_right fun _ => exists_congr fun zeros => ?_
    rw [List.cons.injEq, or_iff_right fun heq => numeral_ne_plus zeros n tail heq.symm, and_iff_right rfl]
    exact Iff.rfl
  · have hread : readSequence cs = if cs.isEmpty || !cs.all Char.isDigit then none
        else if 1 ≤ numberOf cs ∧ numberOf cs ≤ maxSequence then some (numberOf cs) else none := by
      simp only [readSequence]
      split
      · exact absurd ⟨_, rfl⟩ hplus
      · rfl
    rw [hread, unsigned_eq_some_iff]
    refine and_congr_right fun _ => and_congr_right fun _ => exists_congr fun zeros => ?_
    exact (or_iff_left fun heq => hplus ⟨_, heq⟩).symm

theorem splitPoint_eq_some_iff {before after : List Char} :
    splitPoint cs = some (before, after) ↔ cs = before ++ '.' :: after ∧ '.' ∉ before := by
  have hmember : (∀ c ∈ before, decide (c ≠ '.') = true) ↔ '.' ∉ before := by
    simp only [decide_eq_true_eq]
    exact ⟨fun h hc => h '.' hc rfl, fun h c hc heq => h (heq ▸ hc)⟩
  unfold splitPoint
  constructor
  · intro h
    split at h
    · rename_i xs c tail hspan
      obtain ⟨rfl, hxs, hstops⟩ := span_eq_iff.mp hspan
      obtain ⟨rfl, rfl⟩ := Prod.mk.inj (Option.some.inj h)
      obtain rfl : c = '.' := by simpa using hstops c rfl
      exact ⟨rfl, hmember.mp hxs⟩
    · cases h
  · rintro ⟨rfl, hpoint⟩
    have hspan : (before ++ '.' :: after).span (fun c => decide (c ≠ '.')) = (before, '.' :: after) := by
      refine span_eq_iff.mpr ⟨rfl, hmember.mpr hpoint, ?_⟩
      rintro c ⟨⟩
      rfl
    rw [hspan]

theorem SpellsYear.point_not_mem (h : SpellsYear year text) : '.' ∉ text := by
  have hnumeral : ∀ zeros n, '.' ∉ numeral zeros n := fun zeros n =>
    not_mem_of_digits (fun _ hc => isDigit_of_mem_numeral hc) rfl
  cases h with
  | unsigned h => exact not_mem_of_digits h.isDigit rfl
  | plus zeros n => exact List.not_mem_cons_of_ne_of_not_mem (by decide) (hnumeral zeros n)
  | minus zeros n => exact List.not_mem_cons_of_ne_of_not_mem (by decide) (hnumeral zeros n)

/-- A date holds no point, so a code is split behind it. -/
theorem SpellsDate.point_not_mem (h : SpellsDate date text) : '.' ∉ text := by
  have hblanks : ∀ blanks : List Char, (∀ c ∈ blanks, isBlank c = true) → '.' ∉ blanks := fun blanks h hc => by
    have hblank := h '.' hc
    cases hblank
  have hnumber : ∀ n text, SpellsNumber 2 n text → '.' ∉ text := fun n text h => not_mem_of_digits h.isDigit rfl
  cases h with
  | parts hbeforeYear hyear _ hbeforeMonth hmonth _ hbeforeDay hday =>
    simp only [List.mem_append, not_or]
    exact ⟨hblanks _ hbeforeYear, hyear.point_not_mem, hblanks _ hbeforeMonth, hnumber _ _ hmonth,
      hblanks _ hbeforeDay, hnumber _ _ hday⟩

theorem read?_cons {cs : List Char} (h : code.toList = 'v' :: cs) : read? code = (splitPoint cs).bind fun p =>
    if utf8Length p.1 ≠ 8 then none
    else (readDate p.1).bind fun date => (readSequence p.2).map fun n => (date, n) := by
  simp only [read?, h]
  refine congrArg (splitPoint cs).bind (funext fun p => ?_)
  split
  · rfl
  · cases readDate p.1 <;> cases readSequence p.2 <;> rfl

/-- The codes that are read are those that spell a date and a number, and are read as these. -/
theorem read?_eq_some_iff : read? code = some (date, n) ↔ Spells code date n := by
  constructor
  · intro h
    by_cases hv : ∃ cs, code.toList = 'v' :: cs
    · obtain ⟨cs, hcode⟩ := hv
      rw [read?_cons hcode] at h
      obtain ⟨⟨dateText, numberText⟩, hsplit, hread⟩ := Option.bind_eq_some_iff.mp h
      obtain ⟨rfl, -⟩ := splitPoint_eq_some_iff.mp hsplit
      by_cases hbytes : utf8Length dateText = 8
      · rw [if_neg (not_not.mpr hbytes)] at hread
        obtain ⟨date', hdate, hread⟩ := Option.bind_eq_some_iff.mp hread
        obtain ⟨n', hnumber, heq⟩ := Option.map_eq_some_iff.mp hread
        obtain ⟨rfl, rfl⟩ := Prod.mk.inj heq
        obtain ⟨hvalid, hspells⟩ := readDate_eq_some_iff.mp hdate
        exact ⟨dateText, numberText, hcode, hbytes, hvalid, hspells, readSequence_eq_some_iff.mp hnumber⟩
      · rw [if_pos hbytes] at hread
        cases hread
    · unfold read? at h
      split at h
      · rename_i cs hcode
        exact absurd ⟨cs, hcode⟩ hv
      · cases h
  · rintro ⟨dateText, numberText, hcode, hbytes, hvalid, hspells, hnumber⟩
    have hsplit : splitPoint (dateText ++ '.' :: numberText) = some (dateText, numberText) :=
      splitPoint_eq_some_iff.mpr ⟨rfl, hspells.point_not_mem⟩
    rw [read?_cons hcode, hsplit, Option.bind_some, if_neg (not_not.mpr hbytes),
      readDate_eq_some_iff.mpr ⟨hvalid, hspells⟩, Option.bind_some, readSequence_eq_some_iff.mpr hnumber]
    rfl

end StrategyBench.VersionCode

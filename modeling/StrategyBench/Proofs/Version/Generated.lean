/-
StrategyBench.Proofs.Version.Generated — generated codes among those that are read.

A generated code is read as the date and the number that it was generated for, so that different dates
or numbers have different codes (`generated_codes_are_read_back`). It is one of the spellings of these:
the one with eight digits for the date and a number that begins with neither a `+` nor a zero, and of
the spellings that are read no other is like that (`read_as_generated_iff_plain`).
-/

import StrategyBench.Proofs.Version.Sequence
import StrategyBench.Proofs.Version.Spellings

namespace StrategyBench

open VersionCode (padded toList_padLeft le_length_padded length_padded isDigit_of_mem_numeral not_mem_of_digits)

variable {date : Date}

/-! ## Dates as text -/

namespace Date

theorem month_day_bounds (h : date.valid = true) : date.month < 10 ^ 2 ∧ date.day < 10 ^ 2 := by
  have hdays : daysIn date.year date.month ≤ 31 := by
    unfold daysIn
    split
    · split <;> omega
    all_goals omega
  have hmonth : 12 < date.month → daysIn date.year date.month = 0 := by
    intro hlt
    unfold daysIn
    split <;> omega
  simp only [valid, Bool.and_eq_true, decide_eq_true_eq] at h
  omega

/-- What stands before the digits of a year. -/
def sign (year : Int) : List Char := if year < 0 then ['-'] else if year > 9999 then ['+'] else []

theorem sign_of_le (hlow : 0 ≤ date.year) (hhigh : date.year ≤ 9999) : sign date.year = [] := by
  rw [sign, if_neg (by omega), if_neg (by omega)]

theorem toList_compact (date : Date) : date.compact.toList =
    sign date.year ++ (padded 4 date.year.natAbs ++ (padded 2 date.month ++ padded 2 date.day)) := by
  have hyear : (yearText date.year).toList = sign date.year ++ padded 4 date.year.natAbs := by
    unfold yearText sign
    simp only
    split
    · rw [String.toList_append, toList_padLeft]; rfl
    · split
      · rw [String.toList_append, toList_padLeft]; rfl
      · rw [toList_padLeft]; rfl
  rw [compact, String.toList_append, String.toList_append, hyear, toList_padLeft, toList_padLeft,
    List.append_assoc, List.append_assoc]

theorem point_not_mem_compact (date : Date) : '.' ∉ date.compact.toList := by
  have hpadded : ∀ width n, '.' ∉ padded width n := fun width n =>
    not_mem_of_digits (fun _ hc => isDigit_of_mem_numeral hc) rfl
  have hsign : '.' ∉ sign date.year := by
    unfold sign
    split
    · decide
    · split <;> decide
  rw [toList_compact]
  simp only [List.mem_append, not_or]
  exact ⟨hsign, hpadded _ _, hpadded _ _, hpadded _ _⟩

theorem length_compact_of_le (h : date.valid = true) (hlow : 0 ≤ date.year) (hhigh : date.year ≤ 9999) :
    date.compact.toList.length = 8 := by
  obtain ⟨hmonth, hday⟩ := month_day_bounds h
  rw [toList_compact, sign_of_le hlow hhigh, List.nil_append, List.length_append, List.length_append,
    length_padded (by decide) (by omega), length_padded (by decide) hmonth, length_padded (by decide) hday]

theorem isDigit_compact_of_le (hlow : 0 ≤ date.year) (hhigh : date.year ≤ 9999) :
    ∀ c ∈ date.compact.toList, c.isDigit = true := by
  intro c hc
  rw [toList_compact, sign_of_le hlow hhigh, List.nil_append] at hc
  rcases List.mem_append.mp hc with hc | hc
  · exact isDigit_of_mem_numeral hc
  · rcases List.mem_append.mp hc with hc | hc <;> exact isDigit_of_mem_numeral hc

/-- With a sign there are more than eight characters. -/
theorem year_bounds_of_length (h : date.compact.toList.length ≤ 8) : 0 ≤ date.year ∧ date.year ≤ 9999 := by
  have hyear := le_length_padded 4 date.year.natAbs
  have hmonth := le_length_padded 2 date.month
  have hday := le_length_padded 2 date.day
  rw [toList_compact, List.length_append, List.length_append, List.length_append] at h
  unfold sign at h
  split at h
  · rw [List.length_singleton] at h; omega
  · split at h
    · rw [List.length_singleton] at h; omega
    · omega

end Date

namespace VersionCode

variable {cs text : List Char} {code : String} {n : Nat}

/-! ## Bytes -/

theorem utf8Length_eq (cs : List Char) : utf8Length cs = (cs.map Char.utf8Size).sum := by
  have hfrom : ∀ n, cs.foldl (fun n c => n + c.utf8Size) n = n + (cs.map Char.utf8Size).sum := by
    induction cs with
    | nil => exact fun n => rfl
    | cons c cs ih =>
      intro n
      rw [List.foldl_cons, ih, List.map_cons, List.sum_cons, Nat.add_assoc]
  rw [utf8Length, hfrom, Nat.zero_add]

theorem length_le_utf8Length (cs : List Char) : cs.length ≤ utf8Length cs := by
  rw [utf8Length_eq]
  induction cs with
  | nil => exact Nat.le_refl 0
  | cons c cs ih =>
    have := Char.utf8Size_pos c
    rw [List.length_cons, List.map_cons, List.sum_cons]
    omega

theorem utf8Length_of_digits (h : ∀ c ∈ cs, c.isDigit = true) : utf8Length cs = cs.length := by
  rw [utf8Length_eq]
  induction cs with
  | nil => rfl
  | cons c cs ih =>
    have hrange : 48 ≤ c.toNat ∧ c.toNat ≤ 57 := Char.isDigit_iff_toNat.mp (h c List.mem_cons_self)
    have hsize : c.utf8Size = 1 := Char.utf8Size_eq_one_iff.mpr (UInt32.le_iff_toNat_le.mpr (by
      show c.toNat ≤ 127
      omega))
    rw [List.map_cons, List.sum_cons, ih fun d hd => h d (List.mem_cons_of_mem c hd), hsize, List.length_cons,
      Nat.add_comm]

/-! ## Generated codes -/

theorem toList_write (date : Date) (n : Nat) :
    (write date n).toList = 'v' :: (date.compact.toList ++ '.' :: Nat.toDigits 10 n) := by
  rw [write, String.toList_append, String.toList_append, String.toList_append, Nat.toString_eq_repr, Nat.toList_repr]
  simp

/-- A code is split in one way. -/
theorem parts_unique {before before' after after' : List Char} (hbefore : '.' ∉ before) (hbefore' : '.' ∉ before')
    (h : before ++ '.' :: after = before' ++ '.' :: after') : before = before' ∧ after = after' := by
  have hsplit : splitPoint (before ++ '.' :: after) = some (before, after) :=
    splitPoint_eq_some_iff.mpr ⟨rfl, hbefore⟩
  have hsplit' : splitPoint (before ++ '.' :: after) = some (before', after') :=
    splitPoint_eq_some_iff.mpr ⟨h, hbefore'⟩
  exact Prod.mk.inj (Option.some.inj (hsplit.symm.trans hsplit'))

theorem spellsNumber_padded {width : Nat} (hwidth : 0 < width) (hn : n < 10 ^ width) :
    SpellsNumber width n (padded width n) :=
  ⟨_, rfl, Nat.le_of_eq (length_padded hwidth hn)⟩

theorem spellsDate_compact (h : date.valid = true) (hlow : 0 ≤ date.year) (hhigh : date.year ≤ 9999) :
    SpellsDate date date.compact.toList := by
  obtain ⟨hmonth, hday⟩ := Date.month_day_bounds h
  have hnatural : ((date.year.natAbs : Nat) : Int) = date.year := Int.natAbs_of_nonneg hlow
  have hyear : SpellsYear date.year (padded 4 date.year.natAbs) := by
    rw [← hnatural, Int.natAbs_natCast]
    exact .unsigned (spellsNumber_padded (by decide) (by omega))
  have hfour : FourDigits (padded 4 date.year.natAbs) :=
    ⟨length_padded (by decide) (by omega), fun c hc => isDigit_of_mem_numeral hc⟩
  have hparts : SpellsDate date ([] ++ (padded 4 date.year.natAbs ++ ([] ++ (padded 2 date.month ++ ([] ++
      padded 2 date.day))))) :=
    .parts (List.forall_mem_nil _) hyear (.inl hfour) (List.forall_mem_nil _)
      (spellsNumber_padded (by decide) hmonth) (.inl (length_padded (by decide) hmonth)) (List.forall_mem_nil _)
      (spellsNumber_padded (by decide) hday)
  rw [Date.toList_compact, Date.sign_of_le hlow hhigh]
  exact hparts

theorem spells_write (h : date.valid = true) (hlow : 0 ≤ date.year) (hhigh : date.year ≤ 9999) (hn : 1 ≤ n)
    (hmax : n ≤ maxSequence) : Spells (write date n) date n := by
  refine ⟨date.compact.toList, Nat.toDigits 10 n, toList_write date n, ?_, h, spellsDate_compact h hlow hhigh, hn, hmax,
    0, .inl rfl⟩
  rw [utf8Length_of_digits (Date.isDigit_compact_of_le hlow hhigh), Date.length_compact_of_le h hlow hhigh]

/-- Different dates and numbers have different codes, of any length. -/
theorem write_inj {date' : Date} {n' : Nat} (h : date.valid = true) (hlow : 0 ≤ date.year) (hhigh : date.year ≤ 9999)
    (h' : date'.valid = true) (hlow' : 0 ≤ date'.year) (hhigh' : date'.year ≤ 9999) :
    write date n = write date' n' ↔ date = date' ∧ n = n' := by
  constructor
  · intro heq
    have hlist := congrArg String.toList heq
    rw [toList_write, toList_write] at hlist
    obtain ⟨hdates, -⟩ := parts_unique (Date.point_not_mem_compact date) (Date.point_not_mem_compact date')
      (List.cons.inj hlist).2
    have hread : readDate date.compact.toList = some date :=
      readDate_eq_some_iff.mpr ⟨h, spellsDate_compact h hlow hhigh⟩
    have hread' : readDate date'.compact.toList = some date' :=
      readDate_eq_some_iff.mpr ⟨h', spellsDate_compact h' hlow' hhigh'⟩
    rw [← hdates, hread] at hread'
    obtain rfl := Option.some.inj hread'
    exact ⟨rfl, write_injective date heq⟩
  · rintro ⟨rfl, rfl⟩
    rfl

/-- A search never leaves the numbers of 32 bits. -/
theorem bounds_of_generate {existing : List String} (h : generate existing date = write date n) :
    1 ≤ n ∧ n ≤ maxSequence := by
  rw [generate] at h
  cases hsearch : firstFree date existing 1 (min (existing.length + 1) maxSequence) with
  | some code =>
    rw [hsearch] at h
    obtain ⟨m, hlow, hhigh, rfl, -, -⟩ := free_of_firstFree_some hsearch
    obtain rfl := write_injective date h
    omega
  | none =>
    -- the code that is left when no number is has no point in it
    rw [hsearch] at h
    have hlist := congrArg String.toList h
    rw [toList_write, Option.getD_none, String.toList_append] at hlist
    have hpoint : date.compact.toList = date.compact.toList ++ '.' :: Nat.toDigits 10 n := (List.cons.inj hlist).2
    have hlength := congrArg List.length hpoint
    rw [List.length_append, List.length_cons] at hlength
    omega

/-- A generated code is read as what it was generated for, which it always is while fewer codes are taken than
there are numbers; and of different dates or numbers, whatever these are, the codes are different. -/
theorem generated_codes_are_read_back (h : date.valid = true) (hlow : 0 ≤ date.year) (hhigh : date.year ≤ 9999)
    (existing : List String) :
    (∀ n, generate existing date = write date n → read? (generate existing date) = some (date, n)) ∧
      (existing.toFinset.card < maxSequence → ∃ n, generate existing date = write date n) ∧
      ∀ date' n n', date'.valid = true → 0 ≤ date'.year → date'.year ≤ 9999 →
        (write date n = write date' n' ↔ date = date' ∧ n = n') := by
  refine ⟨fun n hcode => ?_, fun hfew => ?_, fun date' n n' h' hlow' hhigh' => write_inj h hlow hhigh h' hlow' hhigh'⟩
  · obtain ⟨hn, hmax⟩ := bounds_of_generate hcode
    rw [hcode]
    exact read?_eq_some_iff.mpr (spells_write h hlow hhigh hn hmax)
  · rcases generate_cases date existing with ⟨n, -, -, hcode, -, -⟩ | ⟨hmany, -⟩
    · exact ⟨n, hcode⟩
    · omega

/-- A leap day of a year below a thousand, with its first code taken. -/
theorem leap_day_is_read_back :
    generate ["v08040229.1"] ⟨804, 2, 29⟩ = write ⟨804, 2, 29⟩ 2 ∧
      read? (generate ["v08040229.1"] ⟨804, 2, 29⟩) = some (⟨804, 2, 29⟩, 2) ∧
      write ⟨804, 2, 29⟩ 1 ≠ write ⟨804, 2, 29⟩ 2 := by
  have hcode : generate ["v08040229.1"] ⟨804, 2, 29⟩ = write ⟨804, 2, 29⟩ 2 := by decide +kernel
  have hvalid : Date.valid ⟨804, 2, 29⟩ = true := by decide
  obtain ⟨hread, -, hdistinct⟩ :=
    generated_codes_are_read_back hvalid (by decide) (by decide) ["v08040229.1"]
  refine ⟨hcode, hread 2 hcode, fun heq => ?_⟩
  obtain ⟨-, hnumber⟩ := (hdistinct ⟨804, 2, 29⟩ 1 2 (by decide) (by decide) (by decide)).mp heq
  cases hnumber

/-! ## The spelling that is generated -/

/-- Eight digits, and a number that begins with neither a `+` nor a zero. -/
def Plain (code : String) : Prop :=
  ∃ dateText numberText, code.toList = 'v' :: (dateText ++ '.' :: numberText) ∧ dateText.length = 8 ∧
    (∀ c ∈ dateText, c.isDigit = true) ∧ ∀ c ∈ numberText.head?, c ≠ '+' ∧ c ≠ '0'

theorem plain_write (h : date.valid = true) (hlow : 0 ≤ date.year) (hhigh : date.year ≤ 9999) (hn : 1 ≤ n) :
    Plain (write date n) := by
  refine ⟨date.compact.toList, Nat.toDigits 10 n, toList_write date n, Date.length_compact_of_le h hlow hhigh,
    Date.isDigit_compact_of_le hlow hhigh, fun c hc => ⟨?_, ?_⟩⟩
  · rintro rfl
    have hdigits : ∀ c ∈ Nat.toDigits 10 n, c.isDigit = true := fun c hc =>
      Nat.isDigit_of_mem_toDigits (by decide) (by decide) hc
    exact not_mem_of_digits hdigits rfl (List.mem_of_mem_head? hc)
  · rintro rfl
    exact head?_toDigits_ne_zero (by omega) hc

/-- A generated code that is read has no sign in its date, as there are eight bytes only. -/
theorem plain_of_spells_write (h : Spells (write date n) date n) : Plain (write date n) := by
  obtain ⟨dateText, numberText, hcode, hbytes, hvalid, hdate, hn, -⟩ := h
  rw [toList_write] at hcode
  obtain ⟨rfl, -⟩ := parts_unique (Date.point_not_mem_compact date) hdate.point_not_mem (List.cons.inj hcode).2
  have hlength := length_le_utf8Length date.compact.toList
  obtain ⟨hlow, hhigh⟩ : 0 ≤ date.year ∧ date.year ≤ 9999 := Date.year_bounds_of_length (by omega)
  exact plain_write hvalid hlow hhigh hn

/-- Where there are only digits there is no blank. -/
theorem eq_nil_of_digits {blanks : List Char} (hblanks : ∀ c ∈ blanks, Text.isBlank c = true)
    (hdigits : ∀ c ∈ blanks, c.isDigit = true) : blanks = [] := by
  cases blanks with
  | nil => rfl
  | cons c blanks =>
    have hblank := hblanks c List.mem_cons_self
    rw [isBlank_eq_false_of_isDigit (hdigits c List.mem_cons_self)] at hblank
    cases hblank

theorem padded_of_spellsNumber {width width' : Nat} (h : SpellsNumber width n text) (hlength : text.length = width') :
    text = padded width' n := by
  obtain ⟨zeros, rfl, -⟩ := h
  exact numeral_eq_padded hlength

/-- Four digits spell a year without a sign. -/
theorem SpellsYear.of_digits {year : Int} (h : SpellsYear year text) (hlength : text.length = 4)
    (hdigits : ∀ c ∈ text, c.isDigit = true) : text = padded 4 year.natAbs ∧ 0 ≤ year ∧ year ≤ 9999 := by
  cases h with
  | @unsigned n _ h =>
    have htext := padded_of_spellsNumber h hlength
    obtain ⟨zeros, rfl, hfit⟩ := h
    rw [length_numeral] at hfit
    have hn : n < 10 ^ 4 := (Nat.length_toDigits_le_iff (by decide) (by decide)).mp (by omega)
    rw [Int.natAbs_natCast]
    exact ⟨htext, by omega, by omega⟩
  | plus zeros n => exact absurd List.mem_cons_self (not_mem_of_digits hdigits rfl)
  | minus zeros n => exact absurd List.mem_cons_self (not_mem_of_digits hdigits rfl)

/-- Eight digits spell a date in one way. -/
theorem eq_compact_of_digits (h : SpellsDate date text) (hlength : text.length = 8)
    (hdigits : ∀ c ∈ text, c.isDigit = true) : text = date.compact.toList := by
  cases h with
  | parts hbeforeYear hyear hyearEnds hbeforeMonth hmonth hmonthEnds hbeforeDay hday =>
    rename_i beforeYear year beforeMonth month beforeDay day
    simp only [List.mem_append, or_imp, forall_and] at hdigits
    obtain ⟨hdigits₁, hyearDigits, hdigits₂, -, hdigits₃, -⟩ := hdigits
    obtain rfl := eq_nil_of_digits hbeforeYear hdigits₁
    obtain rfl := eq_nil_of_digits hbeforeMonth hdigits₂
    obtain rfl := eq_nil_of_digits hbeforeDay hdigits₃
    have hfour : year.length = 4 := (hyearEnds.resolve_right fun hne => hne rfl).1
    have htwo : month.length = 2 := hmonthEnds.resolve_right fun hne => hne rfl
    simp only [List.nil_append, List.length_append] at hlength ⊢
    have hday2 : day.length = 2 := by omega
    obtain ⟨hyearText, hlow, hhigh⟩ := hyear.of_digits hfour hyearDigits
    rw [Date.toList_compact, Date.sign_of_le hlow hhigh, ← hyearText, ← padded_of_spellsNumber hmonth htwo,
      ← padded_of_spellsNumber hday hday2, List.nil_append]

theorem eq_toDigits_of_head (h : SpellsSequence n text) (hhead : ∀ c ∈ text.head?, c ≠ '+' ∧ c ≠ '0') :
    text = Nat.toDigits 10 n := by
  obtain ⟨-, -, zeros, rfl | rfl⟩ := h
  · cases zeros with
    | zero => rfl
    | succ zeros => exact absurd rfl (hhead '0' rfl).2
  · exact absurd rfl (hhead '+' rfl).1

theorem eq_write_of_plain (h : Spells code date n) (hplain : Plain code) : code = write date n := by
  obtain ⟨dateText, numberText, hcode, -, -, hdate, hnumber⟩ := h
  obtain ⟨dateText', numberText', hcode', hlength, hdigits, hhead⟩ := hplain
  have hpoint : '.' ∉ dateText' := not_mem_of_digits hdigits rfl
  obtain ⟨rfl, rfl⟩ := parts_unique hdate.point_not_mem hpoint (List.cons.inj (hcode.symm.trans hcode')).2
  rw [← String.toList_inj, hcode, toList_write, ← eq_compact_of_digits hdate hlength hdigits,
    eq_toDigits_of_head hnumber hhead]

/-- The codes that are read are the spellings of a date and a number; of the spellings of one date and one number the
generated code is the one with eight digits and a number that begins with neither a `+` nor a zero. -/
theorem read_as_generated_iff_plain (code : String) (date : Date) (n : Nat) :
    (read? code = some (date, n) ↔ Spells code date n) ∧
      (read? code = some (date, n) → (code = write date n ↔ Plain code)) := by
  refine ⟨read?_eq_some_iff, fun hread => ?_⟩
  have hspells := read?_eq_some_iff.mp hread
  constructor
  · rintro rfl
    exact plain_of_spells_write hspells
  · exact eq_write_of_plain hspells

/-- Blanks in the date, and a `+` and a zero before the number. -/
theorem loose_code_is_not_plain :
    read? "v2024 2 9.+07" = some (⟨2024, 2, 9⟩, 7) ∧ Spells "v2024 2 9.+07" ⟨2024, 2, 9⟩ 7 ∧
      ¬Plain "v2024 2 9.+07" := by
  obtain ⟨hspells, hplain⟩ := read_as_generated_iff_plain "v2024 2 9.+07" ⟨2024, 2, 9⟩ 7
  have hread : read? "v2024 2 9.+07" = some (⟨2024, 2, 9⟩, 7) := by decide +kernel
  have hother : "v2024 2 9.+07" ≠ write ⟨2024, 2, 9⟩ 7 := by decide +kernel
  exact ⟨hread, hspells.mp hread, mt (hplain hread).mpr hother⟩

/-- A code that nothing generates is read, and read as what the generated one is. -/
theorem zero_before_number_is_read :
    read? "v20240101.01" = some (⟨2024, 1, 1⟩, 1) ∧ "v20240101.01" ≠ write ⟨2024, 1, 1⟩ 1 ∧
      read? (write ⟨2024, 1, 1⟩ 1) = some (⟨2024, 1, 1⟩, 1) := by
  decide +kernel

end VersionCode
end StrategyBench

/-
StrategyBench.Proofs.Sandbox.SourceLines — the line of a fault is a line of the text that was handed in.

What is taken off a text before it is read is part of its first line, and never a line as a whole
(`Unmarked.lines`, `splitLines_withoutHashLine`), so that every line keeps its number
(`linesOf_preprocess`). A message that begins with the name and a line is taken apart after that line,
whatever it goes on to say (`splitLocation_numbered`). Together: a fault has a line exactly where reading
stopped at that line (`compile_eq_error_iff`).
-/

import StrategyBench.Proofs.Compare.Minimal
import StrategyBench.Proofs.Decisions
import StrategyBench.Proofs.Lua.Texts
import StrategyBench.Proofs.Version.Spellings
import StrategyBench.Sandbox.Source

namespace StrategyBench.Compare

/-! ## First lines -/

theorem prefix_of_splitLines {cs first : List Char} {rest : List (List Char)} (h : splitLines cs = first :: rest) :
    first <+: cs := by
  have hjoined := intercalate_splitLines cs
  rw [h] at hjoined
  cases rest with
  | nil => exact ⟨[], by rw [← hjoined, List.intercalate_singleton, List.append_nil]⟩
  | cons l ls =>
    rw [List.intercalate_cons_cons, List.append_assoc] at hjoined
    exact ⟨_, hjoined⟩

/-- From its first newline on a text has a blank line and the lines that it has after the first one. -/
theorem splitLines_dropWhile (cs : List Char) :
    splitLines (cs.dropWhile (· ≠ '\n')) = [] :: (splitLines cs).tail := by
  induction cs with
  | nil => rfl
  | cons c cs ih =>
    by_cases hc : c = '\n'
    · subst hc
      rw [List.dropWhile_cons_of_neg (by simp), splitLines_newline]
      rfl
    · obtain ⟨l, ls, hl⟩ := List.exists_cons_of_ne_nil (splitLines_ne_nil cs)
      rw [List.dropWhile_cons_of_pos (by simpa using hc), ih, splitLines_cons hc hl, hl]
      rfl

end StrategyBench.Compare

namespace StrategyBench.Sandbox.Source

open Compare (splitLines linesOf)

/-! ## What is taken off -/

/-- One byte order mark is taken off the start, if there is one. -/
inductive Unmarked : List Char → List Char → Prop
  | marked (cs : List Char) : Unmarked (byteOrderMark :: cs) cs
  | plain {cs : List Char} (h : cs.head? ≠ some byteOrderMark) : Unmarked cs cs

theorem unmarked_withoutMark (cs : List Char) : Unmarked cs (withoutMark cs) := by
  cases cs with
  | nil => exact .plain (by simp)
  | cons c cs =>
    by_cases hc : c = byteOrderMark
    · subst hc
      rw [withoutMark, if_pos rfl]
      exact .marked cs
    · rw [withoutMark, if_neg hc]
      exact .plain fun hmark => hc (Option.some.inj hmark)

/-- A mark at the start of a text is one at the start of its first line. -/
theorem Unmarked.lines {text cs first : List Char} {rest : List (List Char)} (h : Unmarked text cs)
    (hlines : splitLines text = first :: rest) : ∃ line, Unmarked first line ∧ splitLines cs = line :: rest := by
  cases h with
  | marked =>
    obtain ⟨l, ls, hl⟩ := List.exists_cons_of_ne_nil (Compare.splitLines_ne_nil cs)
    rw [Compare.splitLines_cons (by decide) hl] at hlines
    cases hlines
    exact ⟨l, .marked l, hl⟩
  | plain hplain =>
    refine ⟨first, .plain fun hmark => hplain ?_, hlines⟩
    obtain ⟨tail, rfl⟩ := List.head?_eq_some_iff.mp hmark
    obtain ⟨more, rfl⟩ := Compare.prefix_of_splitLines hlines
    rfl

/-- A `#!` line is emptied, and every other line is kept. -/
theorem splitLines_withoutHashLine {cs line : List Char} {rest : List (List Char)}
    (h : splitLines cs = line :: rest) :
    splitLines (withoutHashLine cs) = (if ['#', '!'] <+: line then [] else line) :: rest := by
  unfold withoutHashLine
  split
  · rename_i cs
    -- `#` and `!` are no newlines, so both stand in the first line
    obtain ⟨l, ls, hl⟩ := List.exists_cons_of_ne_nil (Compare.splitLines_ne_nil cs)
    rw [Compare.splitLines_cons (by decide) (Compare.splitLines_cons (by decide) hl)] at h
    cases h
    rw [Compare.splitLines_dropWhile, hl, if_pos ⟨l, rfl⟩]
    rfl
  · rename_i hplain
    rw [if_neg, h]
    intro hhash
    obtain ⟨tail, rfl⟩ := hhash.trans (Compare.prefix_of_splitLines h)
    exact hplain tail rfl

/-- The lines that are read are those handed in, but that the first is without a mark, and empty if it is a `#!`
    line then. -/
theorem linesOf_preprocess (source : String) :
    ∃ first line rest, linesOf source = String.ofList first :: rest ∧ Unmarked first line ∧
      linesOf (preprocess source) = (if ['#', '!'] <+: line then "" else String.ofList line) :: rest := by
  obtain ⟨first, rest, hlines⟩ := List.exists_cons_of_ne_nil (Compare.splitLines_ne_nil source.toList)
  obtain ⟨line, hunmarked, hline⟩ := (unmarked_withoutMark source.toList).lines hlines
  refine ⟨first, line, rest.map String.ofList, ?_, hunmarked, ?_⟩
  · rw [linesOf, hlines]
    rfl
  · rw [linesOf, preprocess, String.toList_ofList, splitLines_withoutHashLine hline]
    split <;> rfl

theorem count_newlines_preprocess (source : String) :
    (preprocess source).toList.count '\n' = source.toList.count '\n' := by
  obtain ⟨first, line, rest, hsource, -, hcode⟩ := linesOf_preprocess source
  have hlines : (linesOf (preprocess source)).length = (linesOf source).length := by
    rw [hsource, hcode, List.length_cons, List.length_cons]
  rw [Compare.length_linesOf, Compare.length_linesOf] at hlines
  exact Nat.succ.inj hlines

/-! ## Positions -/

theorem afterPrefix_append (p cs : List Char) : afterPrefix p (p ++ cs) = some cs := by
  induction p with
  | nil => rfl
  | cons c p ih => rw [List.cons_append, afterPrefix, if_pos rfl, ih]

theorem lineNumber?_toDigits (n : Nat) :
    lineNumber? (Nat.toDigits 10 n) = if n < 2 ^ 64 then some n else none := by
  have hdigit : ∀ c ∈ Nat.toDigits 10 n, c.isDigit = true := fun c hc =>
    Nat.isDigit_of_mem_toDigits (by decide) (by decide) hc
  have hvalue : (Nat.toDigits 10 n).foldl (fun n c => n * 10 + (c.toNat - 48)) 0 = n :=
    VersionCode.numberOf_numeral 0 n
  have hall : (Nat.toDigits 10 n).all Char.isDigit = true := List.all_eq_true.mpr hdigit
  obtain ⟨d, ds, hds⟩ := List.exists_cons_of_ne_nil (Nat.toDigits_ne_nil (b := 10) (n := n))
  -- the first digit is not taken for a sign
  have hsign : d ≠ '+' := by
    rintro rfl
    have := hdigit '+' (by rw [hds]; exact List.mem_cons_self)
    cases this
  rw [hds] at hvalue hall ⊢
  unfold lineNumber?
  split
  · rename_i heq
    exact absurd (List.cons.inj heq).1 hsign
  · simp only [hall, List.isEmpty_cons, Bool.not_true, Bool.or_self, Bool.false_eq_true, if_false, hvalue]
    rfl

/-- A message that begins with the name and a line is taken apart after that line. -/
theorem splitLocation_numbered (n : Nat) (text : String) :
    splitLocation (scriptName ++ ":" ++ toString n ++ ":" ++ text) =
      if n < 2 ^ 64 then ⟨Text.trim text, some n⟩
      else ⟨scriptName ++ ":" ++ toString n ++ ":" ++ text, none⟩ := by
  have hchars : (scriptName ++ ":" ++ toString n ++ ":" ++ text).toList =
      (scriptName ++ ":").toList ++ (Nat.toDigits 10 n ++ ':' :: text.toList) := by
    simp only [String.toList_append, Nat.toString_eq_repr, Nat.toList_repr, List.append_assoc]
    rfl
  have hspan : (Nat.toDigits 10 n ++ ':' :: text.toList).span (· ≠ ':') =
      (Nat.toDigits 10 n, ':' :: text.toList) := by
    refine VersionCode.span_eq_iff.mpr ⟨rfl, fun c hc => ?_, fun c hc => ?_⟩
    · have hdigit := Nat.isDigit_of_mem_toDigits (by decide) (by decide) hc
      rw [decide_eq_true_eq]
      rintro rfl
      cases hdigit
    · obtain rfl : ':' = c := by simpa using hc
      rfl
  unfold splitLocation
  rw [hchars, afterPrefix_append]
  simp only [Option.bind_eq_bind, Option.bind_some, hspan, lineNumber?_toDigits, String.ofList_toList]
  split <;> rfl

/-- A blank where the line would stand is no line. -/
theorem line_splitLocation_blank (text : String) : (splitLocation (scriptName ++ ": " ++ text)).line = none := by
  have hchars : (scriptName ++ ": " ++ text).toList = (scriptName ++ ":").toList ++ ' ' :: text.toList := by
    simp only [String.toList_append, List.append_assoc]
    rfl
  have hblank : ∀ cs, lineNumber? (' ' :: cs) = none := fun cs => rfl
  unfold splitLocation
  rw [hchars, afterPrefix_append]
  simp only [Option.bind_eq_bind, Option.bind_some, List.span_eq_takeWhile_dropWhile]
  rw [List.takeWhile_cons_of_pos (by decide)]
  split
  · rename_i heq
    rw [← (Prod.mk.inj heq).1, hblank]
    rfl
  · rfl

/-! ## Faults -/

theorem toText_located (line : Nat) (text : ByteArray) :
    Bytes.toText (Lua.ChunkName.located (Bytes.ofString chunkName) line text) =
      scriptName ++ ":" ++ toString line ++ ":" ++ (" " ++ Bytes.toText text) := by
  have hshown : Lua.ChunkName.shown (Bytes.ofString chunkName) = Bytes.ofString scriptName := by decide +kernel
  have hjoined : Lua.ChunkName.located (Bytes.ofString chunkName) line text =
      Bytes.ofString scriptName ++ (Bytes.ofString (":" ++ toString line ++ ": ") ++ text) := by
    rw [Lua.ChunkName.located, hshown]
    simp only [Bytes.join, List.foldl_cons, List.foldl_nil, ByteArray.empty_append, ByteArray.append_assoc]
  rw [hjoined, Bytes.toText_ofString_append, Bytes.toText_ofString_append]
  have hcolon : ": " = ":" ++ " " := rfl
  simp only [hcolon, String.append_assoc]

theorem trim_blank (text : String) : Text.trim (" " ++ text) = Text.trim text := by
  have hblank : Text.isBlank ' ' = true := by decide
  have hchars : (" " ++ text).toList = ' ' :: text.toList := by
    rw [String.toList_append]
    rfl
  rw [Text.trim, hchars, Text.trimList, List.dropWhile_cons_of_pos hblank]
  rfl

/-- A fault that is found at a line is told with that line, up to the greatest of 64 bits. -/
theorem splitLocation_located (line : Nat) (text : ByteArray) :
    splitLocation (Bytes.toText (Lua.ChunkName.located (Bytes.ofString chunkName) line text)) =
      if line < 2 ^ 64 then ⟨Text.trim (Bytes.toText text), some line⟩
      else ⟨Bytes.toText (Lua.ChunkName.located (Bytes.ofString chunkName) line text), none⟩ := by
  rw [toText_located, splitLocation_numbered, trim_blank]

/-- A text begins with the byte of compiled chunks where it begins with that character. -/
theorem head?_toList_ofString (code : String) :
    (Bytes.ofString code).toList.head? = some 27 ↔ code.toList.head? = some '\x1b' := by
  rw [Bytes.toList_ofString]
  cases code.toList with
  | nil => simp
  | cons c cs =>
    obtain ⟨b, bs, hbytes, hfirst⟩ := Bytes.firstChar_utf8EncodeChar c (cs.flatMap String.utf8EncodeChar)
    rw [List.flatMap_cons, hbytes, List.head?_cons, List.head?_cons, Option.some.injEq, Option.some.injEq]
    constructor
    · rintro rfl
      exact (Option.some.inj (Prod.mk.inj hfirst).1).symm
    · rintro rfl
      exact (List.cons.inj hbytes).1.symm

theorem tree_of_text {code : String} (h : code.toList.head? ≠ some '\x1b') :
    tree (Bytes.ofString chunkName) (Bytes.ofString code) =
      (Lua.Function.ofSource (Bytes.ofString code)).mapError fun
        | .at line text => .malformed (Lua.ChunkName.located (Bytes.ofString chunkName) line text)
        | .tooDeep => .tooDeep := by
  unfold tree
  split
  · rename_i rest hchunk
    refine absurd ((head?_toList_ofString code).mp ?_) h
    rw [hchunk]
    rfl
  · cases Lua.Function.ofSource (Bytes.ofString code) with
    | ok f => rfl
    | error fault => cases fault <;> rfl

/-- What looks like a compiled chunk is refused with the name and no line. -/
theorem tree_of_chunk {code : String} (h : code.toList.head? = some '\x1b') :
    ∃ what, tree (Bytes.ofString chunkName) (Bytes.ofString code) =
      .error (.malformed (Bytes.ofString (scriptName ++ ": " ++ what))) := by
  have hname : (Bytes.ofString chunkName).extract 1 (Bytes.ofString chunkName).size = Bytes.ofString scriptName := by
    decide +kernel
  have hfirst : Bytes.get? (Bytes.ofString chunkName) 0 = some 61 := by decide +kernel
  unfold tree
  split
  · rename_i rest hchunk
    refine ⟨"bad binary format (" ++ binaryFault rest binaryHeader ++ ")", ?_⟩
    have htext : scriptName ++ ": " ++ ("bad binary format (" ++ binaryFault rest binaryHeader ++ ")") =
        scriptName ++ (": bad binary format (" ++ binaryFault rest binaryHeader ++ ")") := by
      have hsplit : ": bad binary format (" = ": " ++ "bad binary format (" := rfl
      simp only [hsplit, String.append_assoc]
    rw [htext, Bytes.ofString_append scriptName]
    simp only [hfirst, hname, Bytes.join, List.foldl_cons, List.foldl_nil, ByteArray.empty_append]
  · rename_i htext
    obtain ⟨rest, hrest⟩ := List.head?_eq_some_iff.mp ((head?_toList_ofString code).mpr h)
    exact absurd hrest (htext rest)

/-- A text is refused at a line exactly where reading it stops at that line, and for what is wrong there. -/
theorem compile_eq_error_iff {source message : String} {line : Nat} :
    compile source = .error ⟨message, some line⟩ ↔
      (preprocess source).toList.head? ≠ some '\x1b' ∧ line < 2 ^ 64 ∧
        ∃ text, Lua.Function.ofSource (Bytes.ofString (preprocess source)) = .error (.at line text) ∧
          message = Text.trim (Bytes.toText text) := by
  by_cases hchunk : (preprocess source).toList.head? = some '\x1b'
  · obtain ⟨what, htree⟩ := tree_of_chunk hchunk
    simp only [compile, htree, Bytes.toText_ofString]
    constructor
    · intro h
      have hline := congrArg CompileFault.line (Except.error.inj h)
      rw [line_splitLocation_blank] at hline
      cases hline
    · rintro ⟨hplain, -⟩
      exact absurd hchunk hplain
  · simp only [compile, tree_of_text hchunk]
    cases Lua.Function.ofSource (Bytes.ofString (preprocess source)) with
    | ok f => simp
    | error fault =>
      cases fault with
      | tooDeep => simp
      | «at» stop text =>
        simp only [mapError_error, splitLocation_located, Except.error.injEq, Lua.SyntaxFault.at.injEq]
        by_cases hstop : stop < 2 ^ 64
        · rw [if_pos hstop, CompileFault.mk.injEq, Option.some.injEq]
          constructor
          · rintro ⟨rfl, rfl⟩
            exact ⟨hchunk, hstop, text, ⟨rfl, rfl⟩, rfl⟩
          · rintro ⟨-, -, _, ⟨rfl, rfl⟩, rfl⟩
            exact ⟨rfl, rfl⟩
        · rw [if_neg hstop]
          constructor
          · intro h
            cases h
          · rintro ⟨-, hline, _, ⟨rfl, rfl⟩, -⟩
            exact absurd hline hstop

/-- What is read of a text has its newlines and its lines, but that the first is without a byte order mark, and
    empty if it then starts with `#!`. A message with the name and a line before it is split into that line and the
    message, trimmed. So a line is told exactly where reading stopped at that line, which has the same number in what
    is read and in the text; there is none for what nests too deep or looks like a compiled chunk. -/
theorem fault_lines_are_source_lines (source : String) :
    (preprocess source).toList.count '\n' = source.toList.count '\n' ∧
      (∃ first line rest, linesOf source = String.ofList first :: rest ∧ Unmarked first line ∧
        linesOf (preprocess source) = (if ['#', '!'] <+: line then "" else String.ofList line) :: rest) ∧
      (∀ n < 2 ^ 64, ∀ text, splitLocation ("strategy:" ++ toString n ++ ":" ++ text) = ⟨Text.trim text, some n⟩) ∧
      ∀ message line, compile source = .error ⟨message, some line⟩ ↔
        (preprocess source).toList.head? ≠ some '\x1b' ∧ line < 2 ^ 64 ∧
          ∃ text, Lua.Function.ofSource (Bytes.ofString (preprocess source)) = .error (.at line text) ∧
            message = Text.trim (Bytes.toText text) := by
  refine ⟨count_newlines_preprocess source, linesOf_preprocess source, fun n hn text => ?_,
    fun message line => compile_eq_error_iff⟩
  have hnumbered := splitLocation_numbered n text
  rwa [if_pos hn] at hnumbered

/-- Where reading a text stops, and what is wrong there. -/
def stop? (code : String) : Option (Nat × ByteArray) :=
  match Lua.Function.ofSource (Bytes.ofString code) with
  | .error (.at line text) => some (line, text)
  | _ => none

theorem ofSource_of_stop? {code : String} {line : Nat} {text : ByteArray} (h : stop? code = some (line, text)) :
    Lua.Function.ofSource (Bytes.ofString code) = .error (.at line text) := by
  unfold stop? at h
  split at h
  · rename_i hread
    cases h
    exact hread
  · cases h

/-- A script with a mark, a `#!` line, and a fault in its third line. -/
def markedScript : String := "\uFEFF#! lua\nlocal a = 1\nlocal = 2"

theorem fault_of_marked_script :
    (preprocess markedScript).toList.count '\n' = 2 ∧
      splitLocation "strategy:18446744073709551615: near ':1:'\n" = ⟨"near ':1:'", some 18446744073709551615⟩ ∧
      compile markedScript = .error ⟨"<name> expected near '='", some 3⟩ := by
  obtain ⟨hcount, -, hsplit, hfault⟩ := fault_lines_are_source_lines markedScript
  have hstop : stop? (preprocess markedScript) = some (3, Bytes.ofString "<name> expected near '='") := by
    decide +kernel
  have hread := ofSource_of_stop? hstop
  refine ⟨hcount.trans (by decide +kernel), ?_, ?_⟩
  · exact (hsplit 18446744073709551615 (by decide) " near ':1:'\n").trans (by decide +kernel)
  · exact (hfault _ _).mpr ⟨by decide +kernel, by decide, _, hread, by decide +kernel⟩

end StrategyBench.Sandbox.Source

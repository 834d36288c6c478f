/-
StrategyBench.Lua.Bytes — byte strings: order, search, and reading them as text.
-/

namespace StrategyBench.Bytes

/-! ## Equality and order -/

/-- Whether the bytes from `i` on, `n` of them, are equal. -/
def equalFrom (a b : ByteArray) (i : Nat) : Nat → Bool
  | 0 => true
  | n + 1 => a.get! i == b.get! i && equalFrom a b (i + 1) n

def equal (a b : ByteArray) : Bool := a.size == b.size && equalFrom a b 0 a.size

def compareFrom (a b : ByteArray) (i : Nat) : Nat → Ordering
  | 0 => compare a.size b.size
  | n + 1 =>
    let x := a.get! i
    let y := b.get! i
    if x < y then .lt else if y < x then .gt else compareFrom a b (i + 1) n

/-- Dictionary order, byte by byte; a proper start of a string comes before it. -/
def order (a b : ByteArray) : Ordering := compareFrom a b 0 (min a.size b.size)

/-- Shorter strings first, strings of one length in dictionary order. -/
def shortlex (a b : ByteArray) : Ordering :=
  if a.size < b.size then .lt else if b.size < a.size then .gt else compareFrom a b 0 a.size

/-! ## Building -/

def ofList (bs : List UInt8) : ByteArray := bs.foldl ByteArray.push ByteArray.empty

/-- The bytes from `start` on, at most `stop - start`. -/
def slice (s : ByteArray) (start stop : Nat) : ByteArray := s.extract start stop

def repeatAppend (unit acc : ByteArray) : Nat → ByteArray
  | 0 => acc
  | n + 1 => repeatAppend unit (acc ++ unit) n

def join (parts : List ByteArray) : ByteArray := parts.foldl (· ++ ·) ByteArray.empty

def ofString (s : String) : ByteArray := s.toUTF8

def get? (s : ByteArray) (i : Nat) : Option UInt8 := if i < s.size then some (s.get! i) else none

/-! ## Searching -/

/-- Whether `needle` stands at `i` of `s`. -/
def startsAt (s needle : ByteArray) (i : Nat) : Nat → Nat → Bool
  | _, 0 => true
  | k, n + 1 => s.get! (i + k) == needle.get! k && startsAt s needle i (k + 1) n

/-- The first place from `i` on, among `n + 1` places, where `needle` stands. -/
def findFrom (s needle : ByteArray) (i : Nat) : Nat → Option Nat
  | 0 => if i + needle.size ≤ s.size && startsAt s needle i 0 needle.size then some i else none
  | n + 1 =>
    if i + needle.size ≤ s.size && startsAt s needle i 0 needle.size then some i
    else findFrom s needle (i + 1) n

def find? (s needle : ByteArray) (start : Nat) : Option Nat :=
  if start + needle.size ≤ s.size then findFrom s needle start (s.size - start - needle.size) else none

/-- The bytes before the first zero byte. -/
def untilZero (s : ByteArray) : ByteArray :=
  match find? s (ByteArray.empty.push 0) 0 with
  | some i => s.extract 0 i
  | none => s

/-! ## Reading as text -/

def isContinuation (b : UInt8) : Bool := b &&& 0xC0 == 0x80

/-- How many bytes a character with this lead byte has, and the range of its second byte. -/
def leadShape (b : UInt8) : Option (Nat × UInt8 × UInt8) :=
  if b < 0xC2 then none
  else if b < 0xE0 then some (2, 0x80, 0xBF)
  else if b == 0xE0 then some (3, 0xA0, 0xBF)
  else if b == 0xED then some (3, 0x80, 0x9F)
  else if b < 0xF0 then some (3, 0x80, 0xBF)
  else if b == 0xF0 then some (4, 0x90, 0xBF)
  else if b < 0xF4 then some (4, 0x80, 0xBF)
  else if b == 0xF4 then some (4, 0x80, 0x8F)
  else none

def payload (b : UInt8) : Nat := (b &&& 0x3F).toNat

/-- The first character, or how many bytes at the start are no character; and the rest. -/
def firstChar (b : UInt8) (rest : List UInt8) : Option Char × List UInt8 :=
  if b < 0x80 then (some (Char.ofNat b.toNat), rest)
  else
    match leadShape b with
    | none => (none, rest)
    | some (n, low, high) =>
      match rest with
      | [] => (none, rest)
      | c :: rest₁ =>
        if c < low || high < c then (none, rest)
        else if n = 2 then (some (Char.ofNat ((b &&& 0x1F).toNat * 64 + payload c)), rest₁)
        else
          match rest₁ with
          | [] => (none, rest₁)
          | d :: rest₂ =>
            if !isContinuation d then (none, rest₁)
            else if n = 3 then
              (some (Char.ofNat (((b &&& 0x0F).toNat * 64 + payload c) * 64 + payload d)), rest₂)
            else
              match rest₂ with
              | [] => (none, rest₂)
              | e :: rest₃ =>
                if !isContinuation e then (none, rest₂)
                else
                  (some (Char.ofNat ((((b &&& 0x07).toNat * 64 + payload c) * 64 + payload d) * 64
                    + payload e)), rest₃)

/-- The characters of a byte string, last first; `none` for what is no character. -/
def decodeOnto (acc : List (Option Char)) : Nat → List UInt8 → List (Option Char)
  | 0, _ => acc
  | _, [] => acc
  | n + 1, b :: rest =>
    let (c, rest) := firstChar b rest
    decodeOnto (c :: acc) n rest

def decode (s : ByteArray) : List (Option Char) := (decodeOnto [] s.size s.toList).reverse

/-- What is no character is shown as U+FFFD. -/
def toText (s : ByteArray) : String := String.ofList ((decode s).map (·.getD '\uFFFD'))

/-- The text, if all of it is characters. -/
def text? (s : ByteArray) : Option String :=
  let cs := decode s
  if cs.all Option.isSome then some (String.ofList (cs.filterMap id)) else none

end StrategyBench.Bytes

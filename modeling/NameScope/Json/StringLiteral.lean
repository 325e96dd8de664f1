/-!
# String literals

How a text is written as a double-quoted literal, and how such a literal is
read back. The literal follows the JSON grammar: the quote, the backslash and
the characters below U+0020 are escaped, all others stand for themselves.
`scriptSafe` also escapes the two line separators U+2028 and U+2029, which JSON
allows raw and script grammars may take for the end of a line.

The reader takes every JSON literal, also those the writer never produces. It
first reads units, one per plain character or escape, and then joins the
surrogate pairs among them; a surrogate without its partner has no text.
-/

namespace NameScope.StringLiteral

/-! ## Writing -/

/-- The hexadecimal digit of value `n`, in lower case. -/
def hexDigit (n : Nat) : Char :=
  if n < 10 then Char.ofNat ('0'.toNat + n) else Char.ofNat ('a'.toNat + (n - 10))

/-- How one character stands inside a literal. -/
def escapeChar (c : Char) : List Char :=
  if c = '"' then ['\\', '"']
  else if c = '\\' then ['\\', '\\']
  else if c = '\x08' then ['\\', 'b']
  else if c = '\x0c' then ['\\', 'f']
  else if c = '\n' then ['\\', 'n']
  else if c = '\r' then ['\\', 'r']
  else if c = '\t' then ['\\', 't']
  else if c.toNat < 0x20 then
    ['\\', 'u', '0', '0', hexDigit (c.toNat / 16), hexDigit (c.toNat % 16)]
  else [c]

/-- The literal of a text: quoted and escaped. -/
def encode (text : List Char) : List Char :=
  '"' :: (text.flatMap escapeChar ++ ['"'])

/-- The escape of a line separator; other characters stand for themselves. -/
def escapeSeparator (c : Char) : List Char :=
  if c = '\u2028' then ['\\', 'u', '2', '0', '2', '8']
  else if c = '\u2029' then ['\\', 'u', '2', '0', '2', '9']
  else [c]

/-- A literal whose line separators are escaped as well. -/
def scriptSafe (literal : List Char) : List Char :=
  literal.flatMap escapeSeparator

/-- The literal of a text as it is written into generated code. -/
def ofString (text : String) : String :=
  String.ofList (scriptSafe (encode text.toList))

/-! ## Reading -/

/-- The value of a hexadecimal digit of either case. -/
def hexValue? (c : Char) : Option Nat :=
  if '0' ≤ c ∧ c ≤ '9' then some (c.toNat - '0'.toNat)
  else if 'a' ≤ c ∧ c ≤ 'f' then some (c.toNat - 'a'.toNat + 10)
  else if 'A' ≤ c ∧ c ≤ 'F' then some (c.toNat - 'A'.toNat + 10)
  else none

/-- The unit that four hexadecimal digits name. -/
def hexUnit? (a b c d : Char) : Option Nat := do
  let a ← hexValue? a
  let b ← hexValue? b
  let c ← hexValue? c
  let d ← hexValue? d
  return ((a * 16 + b) * 16 + c) * 16 + d

/-- The character that a backslash and one letter stand for. -/
def shortEscape? (c : Char) : Option Char :=
  if c = '"' then some '"'
  else if c = '\\' then some '\\'
  else if c = '/' then some '/'
  else if c = 'b' then some '\x08'
  else if c = 'f' then some '\x0c'
  else if c = 'n' then some '\n'
  else if c = 'r' then some '\r'
  else if c = 't' then some '\t'
  else none

/-- The units of a literal whose opening quote has been read, and the text after
its closing quote. A raw character below U+0020, an unknown escape and the end
of the text are refused. -/
def units? : List Char → Option (List Nat × List Char)
  | [] => none
  | c :: rest =>
    if c = '"' then some ([], rest)
    else if c = '\\' then
      match rest with
      | [] => none
      | 'u' :: a :: b :: c :: d :: more => do
        let unit ← hexUnit? a b c d
        let (units, after) ← units? more
        return (unit :: units, after)
      | e :: more => do
        let char ← shortEscape? e
        let (units, after) ← units? more
        return (char.toNat :: units, after)
    else if c.toNat < 0x20 then none
    else do
      let (units, after) ← units? rest
      return (c.toNat :: units, after)

/-- Whether a unit is the first half of a surrogate pair. -/
def isHighSurrogate (unit : Nat) : Bool := 0xD800 ≤ unit && unit < 0xDC00

/-- Whether a unit is the second half of a surrogate pair. -/
def isLowSurrogate (unit : Nat) : Bool := 0xDC00 ≤ unit && unit < 0xE000

/-- The text of a list of units: surrogate pairs are joined, and a surrogate
outside a pair is refused. -/
def joinUnits? : List Nat → Option (List Char)
  | [] => some []
  | unit :: rest =>
    if isHighSurrogate unit then
      match rest with
      | low :: more =>
        if isLowSurrogate low then do
          let text ← joinUnits? more
          return Char.ofNat (0x10000 + (unit - 0xD800) * 0x400 + (low - 0xDC00)) :: text
        else none
      | [] => none
    else if isLowSurrogate unit then none
    else do
      let text ← joinUnits? rest
      return Char.ofNat unit :: text

/-- Read one literal: its text, and what follows it. -/
def read? : List Char → Option (List Char × List Char)
  | [] => none
  | c :: rest =>
    if c = '"' then do
      let (units, after) ← units? rest
      let text ← joinUnits? units
      return (text, after)
    else none

/-- What follows a literal is shorter than what was read. -/
theorem length_lt_of_units? {text after : List Char} {units : List Nat}
    (h : units? text = some (units, after)) : after.length < text.length := by
  fun_induction units? text generalizing units after with
  | case1 => simp at h
  | case2 rest => simp_all
  | case3 => simp at h
  | case4 a b c d more _ ih =>
    simp only [bind, Option.bind_eq_some_iff] at h
    obtain ⟨_, _, ⟨us, out⟩, hrec, heq⟩ := h
    cases heq
    have := ih hrec
    simp only [List.length_cons]
    omega
  | case5 e more _ _ ih =>
    simp only [bind, Option.bind_eq_some_iff] at h
    obtain ⟨_, _, ⟨us, out⟩, hrec, heq⟩ := h
    cases heq
    have := ih hrec
    simp only [List.length_cons]
    omega
  | case6 => simp at h
  | case7 c rest _ _ _ ih =>
    simp only [bind, Option.bind_eq_some_iff] at h
    obtain ⟨⟨us, out⟩, hrec, heq⟩ := h
    cases heq
    have := ih hrec
    simp only [List.length_cons]
    omega

end NameScope.StringLiteral

import NameScope.Json.StringLiteral

/-!
# JSON tokens

`Token.ofText?` cuts a text into the tokens of JSON. White space between tokens
is dropped. String tokens keep their units, so that a string with a lone
surrogate is still a token although it has no text; numbers keep nothing but
their being well formed.
-/

namespace NameScope.Json

open StringLiteral

/-- A token of a JSON text. -/
inductive Token where
  | openBrace
  | closeBrace
  | openBracket
  | closeBracket
  | colon
  | comma
  | null
  | bool (value : Bool)
  | number
  | string (units : List Nat)
deriving DecidableEq, Repr

namespace Token

/-- White space between tokens. -/
def isBlank (c : Char) : Bool := c = ' ' || c = '\t' || c = '\n' || c = '\r'

/-- The token that a punctuation mark is. -/
def ofMark? (c : Char) : Option Token :=
  if c = '\x7b' then some .openBrace
  else if c = '\x7d' then some .closeBrace
  else if c = '[' then some .openBracket
  else if c = ']' then some .closeBracket
  else if c = ':' then some .colon
  else if c = ',' then some .comma
  else none

/-- What follows one or more digits. -/
def skipDigits? : List Char → Option (List Char)
  | [] => none
  | c :: rest => if c.isDigit then some (rest.dropWhile Char.isDigit) else none

/-- What follows the digits of a whole number; a leading zero stands alone. -/
def skipWhole? : List Char → Option (List Char)
  | [] => none
  | c :: rest => if c = '0' then some rest else skipDigits? (c :: rest)

/-- What follows a fractional part, if there is one. -/
def skipFraction? : List Char → Option (List Char)
  | [] => some []
  | c :: rest => if c = '.' then skipDigits? rest else some (c :: rest)

/-- What follows the sign of an exponent, if there is one. -/
def skipSign : List Char → List Char
  | [] => []
  | c :: rest => if c = '+' ∨ c = '-' then rest else c :: rest

/-- What follows an exponent, if there is one. -/
def skipExponent? : List Char → Option (List Char)
  | [] => some []
  | c :: rest => if c = 'e' ∨ c = 'E' then skipDigits? (skipSign rest) else some (c :: rest)

/-- What follows a number without a sign. -/
def skipMagnitude? (text : List Char) : Option (List Char) := do
  let rest ← skipWhole? text
  let rest ← skipFraction? rest
  skipExponent? rest

/-- What follows a number. -/
def skipNumber? : List Char → Option (List Char)
  | [] => none
  | c :: rest => if c = '-' then skipMagnitude? rest else skipMagnitude? (c :: rest)

/-- Read one token from a text that starts with it, together with what follows. -/
def read? : List Char → Option (Token × List Char)
  | [] => none
  | 't' :: 'r' :: 'u' :: 'e' :: rest => some (.bool true, rest)
  | 'f' :: 'a' :: 'l' :: 's' :: 'e' :: rest => some (.bool false, rest)
  | 'n' :: 'u' :: 'l' :: 'l' :: rest => some (.null, rest)
  | c :: rest =>
    match ofMark? c with
    | some mark => some (mark, rest)
    | none =>
      if c = '"' then (units? rest).map fun (units, after) => (.string units, after)
      else (skipNumber? (c :: rest)).map fun after => (.number, after)

/-! ### What follows a token is shorter than the text -/

private theorem length_lt_of_skipDigits? {text after : List Char}
    (h : skipDigits? text = some after) : after.length < text.length := by
  cases text with
  | nil => simp [skipDigits?] at h
  | cons c rest =>
    simp only [skipDigits?, Option.ite_none_right_eq_some, Option.some.injEq] at h
    have := (List.dropWhile_suffix (l := rest) Char.isDigit).length_le
    simp only [List.length_cons, ← h.2]
    omega

private theorem length_lt_of_skipWhole? {text after : List Char}
    (h : skipWhole? text = some after) : after.length < text.length := by
  cases text with
  | nil => simp [skipWhole?] at h
  | cons c rest =>
    simp only [skipWhole?] at h
    split at h
    · cases h; simp
    · exact length_lt_of_skipDigits? h

private theorem length_le_of_skipFraction? {text after : List Char}
    (h : skipFraction? text = some after) : after.length ≤ text.length := by
  cases text with
  | nil => simp_all [skipFraction?]
  | cons c rest =>
    simp only [skipFraction?] at h
    split at h
    · have := length_lt_of_skipDigits? h
      simp only [List.length_cons]; omega
    · cases h; simp

private theorem length_skipSign_le (text : List Char) :
    (skipSign text).length ≤ text.length := by
  cases text with
  | nil => simp [skipSign]
  | cons c rest => simp only [skipSign]; split <;> simp

private theorem length_le_of_skipExponent? {text after : List Char}
    (h : skipExponent? text = some after) : after.length ≤ text.length := by
  cases text with
  | nil => simp_all [skipExponent?]
  | cons c rest =>
    simp only [skipExponent?] at h
    split at h
    · have := length_lt_of_skipDigits? h
      have := length_skipSign_le rest
      simp only [List.length_cons]; omega
    · cases h; simp

private theorem length_lt_of_skipMagnitude? {text after : List Char}
    (h : skipMagnitude? text = some after) : after.length < text.length := by
  simp only [skipMagnitude?, Option.bind_eq_bind, Option.bind_eq_some_iff] at h
  obtain ⟨_, hw, _, hf, he⟩ := h
  have := length_lt_of_skipWhole? hw
  have := length_le_of_skipFraction? hf
  have := length_le_of_skipExponent? he
  omega

private theorem length_lt_of_skipNumber? {text after : List Char}
    (h : skipNumber? text = some after) : after.length < text.length := by
  cases text with
  | nil => simp [skipNumber?] at h
  | cons c rest =>
    simp only [skipNumber?] at h
    split at h
    · have := length_lt_of_skipMagnitude? h
      simp only [List.length_cons]; omega
    · exact length_lt_of_skipMagnitude? h

theorem length_lt_of_read? {text after : List Char} {token : Token}
    (h : read? text = some (token, after)) : after.length < text.length := by
  unfold read? at h
  split at h
  · simp at h
  · cases h; simp; omega
  · cases h; simp; omega
  · cases h; simp; omega
  · split at h
    · cases h; simp
    · split at h
      · simp only [Option.map_eq_some_iff, Prod.mk.injEq, Prod.exists] at h
        obtain ⟨units, rest', hread, _, rfl⟩ := h
        have := length_lt_of_units? hread
        simp only [List.length_cons]; omega
      · simp only [Option.map_eq_some_iff, Prod.mk.injEq] at h
        obtain ⟨rest', hread, _, rfl⟩ := h
        exact length_lt_of_skipNumber? hread

/-- The tokens of a text, or nothing if some part of it is no token. -/
def ofText? : List Char → Option (List Token)
  | [] => some []
  | c :: rest =>
    if isBlank c then ofText? rest
    else match _hread : read? (c :: rest) with
      | none => none
      | some (token, after) => (ofText? after).map (token :: ·)
termination_by text => text.length
decreasing_by
  · simp
  · exact length_lt_of_read? ‹_›

end Token

end NameScope.Json

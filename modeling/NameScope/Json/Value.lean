import NameScope.Json.Token

/-!
# JSON values

`Value.ofTokens?` builds the value that a list of tokens describes. It walks the
tokens once and keeps the arrays and objects that are still open on a stack of
its own, so nesting may be of any depth. Numbers stand without their value,
which nothing here needs.
-/

namespace NameScope.Json

/-- A JSON value. -/
inductive Value where
  | null
  | bool (value : Bool)
  | number
  /-- A string by its units; see `StringLiteral.joinUnits?` for its text. -/
  | string (units : List Nat)
  | array (elements : List Value)
  /-- An object with its members in the order of the text, repeated keys included. -/
  | object (members : List (List Nat × Value))
deriving Inhabited

namespace Value

/-- An array or object that is not closed yet; what it holds is newest first. -/
inductive Frame where
  | array (elements : List Value)
  | object (members : List (List Nat × Value)) (key : List Nat)

/-- What the next token has to be. -/
inductive Expecting where
  /-- The start of a value. -/
  | value
  /-- The start of a value or the end of the array just opened. -/
  | elementOrEnd
  /-- A key or the end of the object just opened. -/
  | keyOrEnd
  /-- A key of an object with these members. -/
  | key (members : List (List Nat × Value))
  /-- The colon after a key. -/
  | colon (members : List (List Nat × Value)) (key : List Nat)
  /-- A comma or an end: this value is complete. -/
  | afterValue (value : Value)

/-- Where the reader stands: the open frames, innermost first, and what it waits for. -/
structure Reader where
  frames : List Frame
  expecting : Expecting

namespace Reader

/-- The reader at the start of a text. -/
def start : Reader := ⟨[], .value⟩

/-- Take a token where a value has to start. -/
def openValue? (frames : List Frame) : Token → Option Reader
  | .null => some ⟨frames, .afterValue .null⟩
  | .bool value => some ⟨frames, .afterValue (.bool value)⟩
  | .number => some ⟨frames, .afterValue .number⟩
  | .string units => some ⟨frames, .afterValue (.string units)⟩
  | .openBracket => some ⟨frames, .elementOrEnd⟩
  | .openBrace => some ⟨frames, .keyOrEnd⟩
  | _ => none

/-- Take a token after a complete value inside an open frame. -/
def closeOrContinue? (value : Value) (frames : List Frame) : Frame → Token → Option Reader
  | .array elements, .comma => some ⟨.array (value :: elements) :: frames, .value⟩
  | .array elements, .closeBracket =>
    some ⟨frames, .afterValue (.array (value :: elements).reverse)⟩
  | .object members key, .comma => some ⟨frames, .key ((key, value) :: members)⟩
  | .object members key, .closeBrace =>
    some ⟨frames, .afterValue (.object ((key, value) :: members).reverse)⟩
  | _, _ => none

/-- Take one token, or nothing if it cannot stand here. -/
def step? (reader : Reader) (token : Token) : Option Reader :=
  match reader.expecting, token with
  | .value, token => openValue? reader.frames token
  | .elementOrEnd, .closeBracket => some ⟨reader.frames, .afterValue (.array [])⟩
  | .elementOrEnd, token => openValue? (.array [] :: reader.frames) token
  | .keyOrEnd, .closeBrace => some ⟨reader.frames, .afterValue (.object [])⟩
  | .keyOrEnd, .string key => some ⟨reader.frames, .colon [] key⟩
  | .keyOrEnd, _ => none
  | .key members, .string key => some ⟨reader.frames, .colon members key⟩
  | .key _, _ => none
  | .colon members key, .colon => some ⟨.object members key :: reader.frames, .value⟩
  | .colon _ _, _ => none
  | .afterValue value, token =>
    match reader.frames with
    | frame :: frames => closeOrContinue? value frames frame token
    | [] => none

/-- The value read, if it is complete and nothing is open. -/
def finish? (reader : Reader) : Option Value :=
  match reader.frames, reader.expecting with
  | [], .afterValue value => some value
  | _, _ => none

end Reader

/-- The value that the tokens describe. -/
def ofTokens? (tokens : List Token) : Option Value := do
  let reader ← tokens.foldlM Reader.step? Reader.start
  reader.finish?

/-- The value of a JSON text. -/
def ofText? (text : String) : Option Value := do
  let tokens ← Token.ofText? text.toList
  ofTokens? tokens

end Value

end NameScope.Json

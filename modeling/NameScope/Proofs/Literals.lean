import NameScope.Proofs.Atoms

/-!
# Literals are read back

A literal is written in two passes: the first one quotes the text and escapes what JSON
wants escaped, the second one goes over its output and replaces the line separators.
`StringLiteral.Writes` says what this comes to for one character: it stands as an escape
of two characters, as an escape of six, or for itself. The reader takes each form back to
the character (`Writes.units?_append`), whatever follows, and none of them breaks the line
(`Writes.inLine`). So a literal is read back as the text that it was written from, and
what follows it is left (`Fragment.read_literal`).
-/

namespace NameScope

namespace StringLiteral

/-- Whether a character leaves a script on its line: it is neither a control character
nor a line separator. -/
def InLine (c : Char) : Prop := 0x20 ≤ c.toNat ∧ c ≠ '\u2028' ∧ c ≠ '\u2029'

instance : DecidablePred InLine := fun _ => inferInstanceAs (Decidable (_ ∧ _))

/-- A text in which another one stands wherever `mark` stood. -/
def replaceAll (mark : Char) (other : List Char) (text : List Char) : List Char :=
  text.flatMap fun c => if c = mark then other else [c]

/-- How a literal holds a character. -/
inductive Writes (c : Char) : List Char → Prop
  | short {e : Char} : shortEscape? e = some c → InLine e → Writes c ['\\', e]
  | unit {d₁ d₂ d₃ d₄ : Char} : hexUnit? d₁ d₂ d₃ d₄ = some c.toNat →
      (∀ d ∈ [d₁, d₂, d₃, d₄], InLine d) → Writes c ['\\', 'u', d₁, d₂, d₃, d₄]
  | plain : c ≠ '"' → c ≠ '\\' → InLine c → Writes c [c]

/-! ## Writing -/

@[simp] theorem scriptSafe_append (a b : List Char) :
    scriptSafe (a ++ b) = scriptSafe a ++ scriptSafe b :=
  List.flatMap_append

/-- The second pass leaves a text alone that has no line separators. -/
theorem scriptSafe_of_inLine {text : List Char} (inLine : ∀ c ∈ text, InLine c) :
    scriptSafe text = text := by
  induction text with
  | nil => rfl
  | cons c rest ih =>
      obtain ⟨-, first, second⟩ := inLine c List.mem_cons_self
      have plain : escapeSeparator c = [c] := by simp [escapeSeparator, first, second]
      show escapeSeparator c ++ scriptSafe rest = c :: rest
      rw [plain, ih fun d held => inLine d (List.mem_cons_of_mem _ held)]
      rfl

/-- The second pass replaces one line separator and then the other. -/
theorem scriptSafe_eq_replaceAll (text : List Char) :
    scriptSafe text = replaceAll '\u2029' ['\\', 'u', '2', '0', '2', '9']
      (replaceAll '\u2028' ['\\', 'u', '2', '0', '2', '8'] text) := by
  have each : escapeSeparator = fun c =>
      (if c = '\u2028' then ['\\', 'u', '2', '0', '2', '8'] else [c]).flatMap fun d =>
        if d = '\u2029' then ['\\', 'u', '2', '0', '2', '9'] else [d] := by
    funext c
    by_cases first : c = '\u2028'
    · subst first
      rfl
    · by_cases second : c = '\u2029'
      · subst second
        rfl
      · simp [escapeSeparator, first, second]
  unfold scriptSafe replaceAll
  rw [List.flatMap_assoc, each]

theorem inLine_hexDigit : ∀ n < 16, InLine (hexDigit n) := by decide

theorem hexUnit?_hexDigit : ∀ n < 32,
    hexUnit? '0' '0' (hexDigit (n / 16)) (hexDigit (n % 16)) = some n := by decide

/-- **One character** is written in one of the three ways. -/
theorem writes_escape (c : Char) : Writes c (scriptSafe (escapeChar c)) := by
  by_cases letter : c ∈ ['"', '\\', '\x08', '\x0c', '\n', '\r', '\t']
  · simp only [List.mem_cons, List.not_mem_nil, or_false] at letter
    rcases letter with rfl | rfl | rfl | rfl | rfl | rfl | rfl <;>
      exact .short rfl (by decide)
  · simp only [List.mem_cons, List.not_mem_nil, or_false, not_or] at letter
    obtain ⟨quote, backslash, rest⟩ := letter
    by_cases control : c.toNat < 0x20
    · have escape : escapeChar c =
          ['\\', 'u', '0', '0', hexDigit (c.toNat / 16), hexDigit (c.toNat % 16)] := by
        simp [escapeChar, quote, backslash, rest, control]
      have digits : ∀ d ∈ ['0', '0', hexDigit (c.toNat / 16), hexDigit (c.toNat % 16)],
          InLine d := by
        have zero : InLine '0' := by decide
        have high := inLine_hexDigit (c.toNat / 16) (by omega)
        have low := inLine_hexDigit (c.toNat % 16) (by omega)
        simp [zero, high, low]
      have mark : InLine '\\' ∧ InLine 'u' := by decide
      rw [escape, scriptSafe_of_inLine]
      · exact .unit (hexUnit?_hexDigit _ control) digits
      · exact List.forall_mem_cons.mpr ⟨mark.1, List.forall_mem_cons.mpr ⟨mark.2, digits⟩⟩
    · have itself : escapeChar c = [c] := by
        simp [escapeChar, quote, backslash, rest, control]
      rw [itself]
      have digits : InLine '2' ∧ InLine '0' ∧ InLine '8' ∧ InLine '9' := by decide
      by_cases first : c = '\u2028'
      · subst first
        exact .unit (by decide) (by simp [digits])
      · by_cases second : c = '\u2029'
        · subst second
          exact .unit (by decide) (by simp [digits])
        · have inLine : InLine c := ⟨Nat.not_lt.mp control, first, second⟩
          rw [scriptSafe_of_inLine (by simpa using inLine)]
          exact .plain quote backslash inLine

/-! ## Reading -/

variable {c : Char} {written : List Char}

/-- The reader takes what holds a character for this character, and goes on behind it. -/
theorem Writes.units?_append (writes : Writes c written) (more : List Char) :
    units? (written ++ more) =
      (units? more).map fun (units, after) => (c.toNat :: units, after) := by
  cases writes with
  | @short e escape letter =>
      have other : e ≠ 'u' := by
        rintro rfl
        exact absurd ((show shortEscape? 'u' = none from rfl).symm.trans escape) (by simp)
      show units? ('\\' :: e :: more) = _
      rw [units?.eq_def]
      simp only [Char.reduceEq, if_true, if_false, other, imp_false, false_implies, implies_true,
        escape, Option.pure_def, Option.bind_eq_bind, Option.bind_some]
      cases units? more <;> rfl
  | unit digits letters =>
      show units? ('\\' :: 'u' :: _ :: _ :: _ :: _ :: more) = _
      rw [units?.eq_def]
      simp only [Char.reduceEq, if_true, if_false, digits, Option.pure_def, Option.bind_eq_bind,
        Option.bind_some]
      cases units? more <;> rfl
  | plain quote backslash inLine =>
      show units? (c :: more) = _
      rw [units?.eq_def]
      simp only [quote, backslash, Nat.not_lt.mpr inLine.1, if_false, Option.pure_def,
        Option.bind_eq_bind]
      cases units? more <;> rfl

/-- What holds a character stays on the line. -/
theorem Writes.inLine (writes : Writes c written) : ∀ d ∈ written, InLine d := by
  have mark : InLine '\\' ∧ InLine 'u' := by decide
  cases writes with
  | short escape letter => simpa [mark.1] using letter
  | unit digits letters =>
      exact List.forall_mem_cons.mpr ⟨mark.1, List.forall_mem_cons.mpr ⟨mark.2, letters⟩⟩
  | plain quote backslash inLine => simpa using inLine

/-- No character is half of a surrogate pair. -/
theorem joinUnits?_toNat (text : List Char) : joinUnits? (text.map Char.toNat) = some text := by
  induction text with
  | nil => rfl
  | cons c rest ih =>
      have valid : c.toNat < 0xD800 ∨ 0xDFFF < c.toNat ∧ c.toNat < 0x110000 := c.valid
      have high : isHighSurrogate c.toNat = false := by
        simp only [isHighSurrogate, Bool.and_eq_false_iff, decide_eq_false_iff_not]
        omega
      have low : isLowSurrogate c.toNat = false := by
        simp only [isLowSurrogate, Bool.and_eq_false_iff, decide_eq_false_iff_not]
        omega
      rw [List.map_cons, joinUnits?.eq_def]
      simp only [high, low, ih]
      simp

/-! ## Whole literals -/

/-- What stands between the quotes of a literal. -/
def body (text : List Char) : List Char := text.flatMap fun c => scriptSafe (escapeChar c)

theorem toList_ofString (text : String) :
    (ofString text).toList = '"' :: (body text.toList ++ ['"']) := by
  have inner : scriptSafe (text.toList.flatMap escapeChar) = body text.toList :=
    List.flatMap_assoc
  have quote : scriptSafe ['"'] = ['"'] := rfl
  unfold ofString encode
  rw [String.toList_ofList, ← List.singleton_append, scriptSafe_append, scriptSafe_append, inner,
    quote]
  rfl

/-- The reader takes what stands between the quotes for the characters of the text. -/
theorem units?_body (text rest : List Char) :
    units? (body text ++ '"' :: rest) = some (text.map Char.toNat, rest) := by
  induction text with
  | nil =>
      show units? ('"' :: rest) = _
      rw [units?.eq_def]
      rfl
  | cons c more ih =>
      show units? (scriptSafe (escapeChar c) ++ body more ++ '"' :: rest) = _
      rw [List.append_assoc, (writes_escape c).units?_append, ih]
      rfl

theorem read?_ofString (text : String) (rest : List Char) :
    read? ((ofString text).toList ++ rest) = some (text.toList, rest) := by
  rw [toList_ofString, List.cons_append, List.append_assoc]
  show (if '"' = '"' then _ else none) = _
  rw [if_pos rfl]
  simp [units?_body, joinUnits?_toNat]

theorem inLine_ofString {text : String} : ∀ c ∈ (ofString text).toList, InLine c := by
  have quote : InLine '"' := by decide
  intro c held
  rw [toList_ofString, List.mem_cons, List.mem_append, List.mem_singleton] at held
  rcases held with rfl | inner | rfl
  · exact quote
  · obtain ⟨d, -, part⟩ := List.mem_flatMap.mp inner
    exact (writes_escape d).inLine c part
  · exact quote

/-- Different texts have different literals. -/
theorem ofString_inj {s t : String} : ofString s = ofString t ↔ s = t := by
  constructor
  · intro same
    have read := read?_ofString s []
    rw [same, read?_ofString, Option.some.injEq, Prod.mk.injEq] at read
    exact (String.toList_inj.mp read.1).symm
  · exact congrArg ofString

end StringLiteral

namespace Fragment

theorem render_literal (content : String) :
    (literal content).render = StringLiteral.ofString content :=
  render_text _

/-- **A literal is read back.** What is written for a text is a JSON literal in which the
line separators have been replaced. It stands on one line between two quotes. Whatever
follows it, the reader takes it for the text and stops right behind it, so no other text
has the same literal. -/
theorem read_literal (s : String) :
    (∀ f : Fragment, (f ++ .literal s).render = f.render ++ (literal s).render) ∧
    (literal s).render.toList =
      StringLiteral.replaceAll '\u2029' ['\\', 'u', '2', '0', '2', '9']
        (StringLiteral.replaceAll '\u2028' ['\\', 'u', '2', '0', '2', '8']
          (StringLiteral.encode s.toList)) ∧
    (∃ body, (literal s).render.toList = '"' :: (body ++ ['"'])) ∧
    (∀ c ∈ (literal s).render.toList, 0x20 ≤ c.toNat ∧ c ≠ '\u2028' ∧ c ≠ '\u2029') ∧
    (∀ rest, StringLiteral.read? ((literal s).render.toList ++ rest) = some (s.toList, rest)) ∧
    ∀ t, (literal t).render = (literal s).render ↔ t = s := by
  rw [render_literal]
  refine ⟨fun f => ?_, ?_, ⟨StringLiteral.body s.toList, StringLiteral.toList_ofString s⟩,
    StringLiteral.inLine_ofString, StringLiteral.read?_ofString s, fun t => ?_⟩
  · rw [render_append, render_literal]
  · rw [← StringLiteral.scriptSafe_eq_replaceAll]
    exact String.toList_ofList
  · rw [render_literal, StringLiteral.ofString_inj]

end Fragment

end NameScope

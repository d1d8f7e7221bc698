import ImagePreview.Json.Basic

/-!
The tokens of a JSON text. Blanks are space, tab, line feed and carriage return; a word is a run of
the characters that numbers and the three literals are made of, and has to be one of them.
-/
namespace ImagePreview.Json

def isSpace (c : Char) : Bool := c == ' ' || c == '\t' || c == '\n' || c == '\r'

def isWordChar (c : Char) : Bool := c.isAlphanum || c == '+' || c == '-' || c == '.'

/-- What a string is written as: a character, or the sixteen bits of an escape. -/
inductive Unit16
  | char (c : Char)
  | escape (bits : Nat)

/-- Escapes that name the two halves of a pair are one character, and a half alone is none. -/
def Unit16.text? : List Unit16 → Option Text
  | [] => some []
  | .char c :: rest => (text? rest).map (c :: ·)
  | .escape n :: .escape m :: rest =>
    if 0xD800 ≤ n ∧ n < 0xDC00 ∧ 0xDC00 ≤ m ∧ m < 0xE000 then
      (text? rest).map (Char.ofNat (0x10000 + (n - 0xD800) * 0x400 + (m - 0xDC00)) :: ·)
    else if 0xD800 ≤ n ∧ n < 0xE000 then none
    else (text? (.escape m :: rest)).map (Char.ofNat n :: ·)
  | .escape n :: rest =>
    if 0xD800 ≤ n ∧ n < 0xE000 then none else (text? rest).map (Char.ofNat n :: ·)

def unescape? : Char → Option Char
  | '"' => some '"'
  | '\\' => some '\\'
  | '/' => some '/'
  | 'b' => some '\x08'
  | 'f' => some '\x0c'
  | 'n' => some '\n'
  | 'r' => some '\r'
  | 't' => some '\t'
  | _ => none

def Unit16.before (u : Unit16) : List Unit16 × Text → List Unit16 × Text
  | (units, rest) => (u :: units, rest)

def scanString : Text → Option (List Unit16 × Text)
  | [] => none
  | '"' :: t => some ([], t)
  | '\\' :: 'u' :: a :: b :: c :: d :: t =>
    (Text.ofDigits? 16 [a, b, c, d]).bind fun bits => (scanString t).map (Unit16.escape bits).before
  | '\\' :: c :: t =>
    (unescape? c).bind fun c => (scanString t).map (Unit16.char c).before
  | c :: t =>
    if c = '\\' ∨ c.toNat < 0x20 then none else (scanString t).map (Unit16.char c).before

theorem length_scanString {t rest : Text} {units : List Unit16}
    (h : scanString t = some (units, rest)) : rest.length < t.length := by
  fun_induction scanString t generalizing units rest with
  | case1 => simp at h
  | case2 t => simp_all
  | case3 a b c d t ih =>
    obtain ⟨_, _, h⟩ := Option.bind_eq_some_iff.1 h
    obtain ⟨⟨us, r⟩, hr, he⟩ := Option.map_eq_some_iff.1 h
    have := ih hr
    simp only [Unit16.before, Prod.mk.injEq] at he
    rw [← he.2]
    simp only [List.length_cons]; omega
  | case4 c t _ ih =>
    obtain ⟨_, _, h⟩ := Option.bind_eq_some_iff.1 h
    obtain ⟨⟨us, r⟩, hr, he⟩ := Option.map_eq_some_iff.1 h
    have := ih hr
    simp only [Unit16.before, Prod.mk.injEq] at he
    rw [← he.2]
    simp only [List.length_cons]; omega
  | case5 => simp at h
  | case6 c t _ _ _ _ ih =>
    obtain ⟨⟨us, r⟩, hr, he⟩ := Option.map_eq_some_iff.1 h
    have := ih hr
    simp only [Unit16.before, Prod.mk.injEq] at he
    rw [← he.2]
    simp only [List.length_cons]; omega

def isExponent : Text → Bool
  | [] => true
  | c :: t =>
    let digits := match t with
      | '+' :: t => t
      | '-' :: t => t
      | t => t
    (c == 'e' || c == 'E') && !digits.isEmpty && digits.all Char.isDigit

def isNumberTail : Text → Bool
  | '.' :: t => !(t.takeWhile Char.isDigit).isEmpty && isExponent (t.dropWhile Char.isDigit)
  | t => isExponent t

/-- A number without its sign; no digit follows a leading zero. -/
def unsigned? (negative : Bool) (t : Text) : Option Json :=
  let digits := t.takeWhile Char.isDigit
  let tail := t.dropWhile Char.isDigit
  if digits.head? = some '0' ∧ 1 < digits.length then none
  else (Text.ofDigits? 10 digits).bind fun n =>
    if ¬ tail.isEmpty then if isNumberTail tail then some .real else none
    else if negative then some (if n = 0 then .real else .int (-(n : Int)))
    else some (.int n)

def word? (t : Text) : Option Json :=
  if t = "null".toList then some .null
  else if t = "true".toList then some (.bool true)
  else if t = "false".toList then some (.bool false)
  else match t with
    | '-' :: t => unsigned? true t
    | t => unsigned? false t

def punctuation? : Char → Option Token
  | '[' => some .openArray
  | ']' => some .closeArray
  | '{' => some .openObject
  | '}' => some .closeObject
  | ',' => some .comma
  | ':' => some .colon
  | _ => none

def scan : Text → Option (List Token)
  | [] => some []
  | c :: t =>
    if isSpace c then scan t
    else if c = '"' then
      match _h : scanString t with
      | none => none
      | some (units, rest) =>
        (scan rest).map (.scalar (.string (Unit16.text? units)) :: ·)
    else if isWordChar c then
      (word? (c :: t.takeWhile isWordChar)).bind fun value =>
        (scan (t.dropWhile isWordChar)).map (.scalar value :: ·)
    else (punctuation? c).bind fun token => (scan t).map (token :: ·)
termination_by t => t.length
decreasing_by
  · simp only [List.length_cons]; omega
  · have := length_scanString _h
    simp only [List.length_cons]; omega
  · have := (List.dropWhile_sublist (l := t) isWordChar).length_le
    simp only [List.length_cons]; omega
  · simp only [List.length_cons]; omega

end ImagePreview.Json

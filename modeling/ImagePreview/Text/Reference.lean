import ImagePreview.Text.Digits
import ImagePreview.Text.ReferenceTable

/-!
Character references in attribute values. Encoding replaces the characters that could end a quoted
value or begin a tag; decoding replaces each reference once, from the left.
-/
namespace ImagePreview.Text.Reference

def encodeChar (c : Char) : Text :=
  match c with
  | '&' => "&amp;".toList
  | '<' => "&lt;".toList
  | '>' => "&gt;".toList
  | '"' => "&quot;".toList
  | c => [c]

def encode (t : Text) : Text := t.flatMap encodeChar

def encodeQuoted (t : Text) : Text :=
  t.flatMap fun c => if c = '\'' then "&#x27;".toList else encodeChar c

/-- The character with a code point. Surrogates have none, and of the control characters below
the blank only tab, line feed, form feed and carriage return may be referred to. -/
def ofCodePoint? (n : Nat) : Option Char :=
  if n.isValidChar ∧ (0x20 ≤ n ∨ n = 9 ∨ n = 10 ∨ n = 12 ∨ n = 13) then some (Char.ofNat n)
  else none

def character? : Text → Option Char
  | '#' :: 'x' :: digits => (ofDigits? 16 digits).bind ofCodePoint?
  | '#' :: 'X' :: digits => (ofDigits? 16 digits).bind ofCodePoint?
  | '#' :: digits => (ofDigits? 10 digits).bind ofCodePoint?
  | name => (codePoint? name).map Char.ofNat

/-- Decode what follows, with the text since the last `&` held back until it is known whether a
reference stands there. A second `&` starts afresh. -/
def decodeHolding : Option Text → Text → Text
  | none, [] => []
  | some held, [] => '&' :: held
  | none, c :: t => if c = '&' then decodeHolding (some []) t else c :: decodeHolding none t
  | some held, c :: t =>
    if c = ';' then
      match character? held with
      | some d => d :: decodeHolding none t
      | none => '&' :: held ++ ';' :: decodeHolding none t
    else if c = '&' then '&' :: held ++ decodeHolding (some []) t
    else decodeHolding (some (held ++ [c])) t

/-- Every reference replaced by its character; whatever is no reference stays. -/
def decode (t : Text) : Text := decodeHolding none t

end ImagePreview.Text.Reference

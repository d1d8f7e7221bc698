import ImagePreview.Text.Digits

/-!
Text inside a quoted JavaScript literal that stands in a `<script>` element. Both quotes are
escaped, so one form serves either; `<` is escaped so that no tag can begin inside the literal.
Reading goes up to the quote that closes the literal.
-/
namespace ImagePreview.Text.JsLiteral

def escapeChar (c : Char) : Text :=
  match c with
  | '\\' => ['\\', '\\']
  | '\'' => ['\\', '\'']
  | '"' => ['\\', '"']
  | '\n' => ['\\', 'n']
  | '\r' => ['\\', 'r']
  | '<' => "\\u003c".toList
  | '\u2028' => "\\u2028".toList
  | '\u2029' => "\\u2029".toList
  | c => [c]

def escape (t : Text) : Text := t.flatMap escapeChar

/-- Characters that may not stand in a literal as they are. -/
def isLineEnd (c : Char) : Bool := c == '\n' || c == '\r' || c == '\u2028' || c == '\u2029'

def unescape? : Char → Option Char
  | '\\' => some '\\'
  | '\'' => some '\''
  | '"' => some '"'
  | 'n' => some '\n'
  | 'r' => some '\r'
  | _ => none

def read? (quote : Char) : Text → Option (Text × Text)
  | [] => none
  | '\\' :: 'u' :: a :: b :: c :: d :: t =>
    (ofDigits? 16 [a, b, c, d]).bind fun n =>
      (read? quote t).map fun found => (Char.ofNat n :: found.1, found.2)
  | '\\' :: c :: t =>
    (unescape? c).bind fun c => (read? quote t).map fun found => (c :: found.1, found.2)
  | c :: t =>
    if c = quote then some ([], t)
    else if c = '\\' ∨ isLineEnd c then none
    else (read? quote t).map fun found => (c :: found.1, found.2)

end ImagePreview.Text.JsLiteral

/-!
Text as a list of characters. Sizes are counted in the bytes of UTF-8, and words of markup are
compared without regard to the case of ASCII letters.
-/
namespace ImagePreview

/-- A list of characters, so that each rule on text is a rule on lists. -/
abbrev Text := List Char

namespace Text

def byteSize : Text → Nat
  | [] => 0
  | c :: t => c.utf8Size + byteSize t

/-- ASCII letters in lower case, every other character as it is. -/
def lower (t : Text) : Text := t.map Char.toLower

def sameWord (a b : Text) : Bool := lower a == lower b

/-- Whether `word` stands somewhere in the text; the empty word stands in every text. -/
def occursIn (word : Text) : Text → Bool
  | [] => word.isEmpty
  | c :: t => word.isPrefixOf (c :: t) || occursIn word t

def replace (old : Char) (new : Text) (t : Text) : Text :=
  t.flatMap fun c => if c = old then new else [c]

def leadByte (c : Char) : UInt8 := (String.utf8EncodeChar c).headD 0

variable (a b t : Text)

@[simp] theorem byteSize_nil : byteSize [] = 0 := rfl

@[simp] theorem byteSize_cons (c : Char) : byteSize (c :: t) = c.utf8Size + byteSize t := rfl

@[simp] theorem byteSize_append : byteSize (a ++ b) = byteSize a + byteSize b := by
  induction a with
  | nil => simp
  | cons c a ih => rw [List.cons_append, byteSize_cons, byteSize_cons, ih, Nat.add_assoc]

@[simp] theorem sameWord_self : sameWord a a = true := by simp [sameWord]

end Text
end ImagePreview

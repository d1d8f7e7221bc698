import ImagePreview.Text.Digits

/-!
JSON values, their tokens and their compact text. Numbers are kept as far as a program with whole
numbers only can use them, and a string that is no text is kept as such.
-/
namespace ImagePreview

inductive Json
  | null
  | bool (b : Bool)
  | int (n : Int)
  /-- A number written with a fraction, an exponent, or as minus zero. -/
  | real
  /-- Without a text, a string in which half of a surrogate pair stands alone. -/
  | string (text : Option Text)
  | array (items : List Json)
  | object (members : List (Option Text × Json))

namespace Json

inductive Token
  | openArray
  | closeArray
  | openObject
  | closeObject
  | comma
  | colon
  /-- A value without parts. -/
  | scalar (value : Json)

def separate (comma : α) : List (List α) → List α
  | [] => []
  | [item] => item
  | item :: rest => item ++ comma :: separate comma rest

theorem separate_cons_cons (comma : α) (a b : List α) (rest : List (List α)) :
    separate comma (a :: b :: rest) = a ++ comma :: separate comma (b :: rest) := rfl

def escapeChar (c : Char) : Text :=
  match c with
  | '"' => ['\\', '"']
  | '\\' => ['\\', '\\']
  | '\n' => ['\\', 'n']
  | '\r' => ['\\', 'r']
  | '\t' => ['\\', 't']
  | '\x08' => ['\\', 'b']
  | '\x0c' => ['\\', 'f']
  | c =>
    if c.toNat < 0x20 then
      ['\\', 'u', '0', '0', Nat.digitChar (c.toNat / 16), Nat.digitChar (c.toNat % 16)]
    else [c]

def quote (t : Text) : Text := '"' :: t.flatMap escapeChar ++ ['"']

def Token.write : Token → Text
  | openArray => ['[']
  | closeArray => [']']
  | openObject => ['{']
  | closeObject => ['}']
  | comma => [',']
  | colon => [':']
  | scalar .null => "null".toList
  | scalar (.bool true) => "true".toList
  | scalar (.bool false) => "false".toList
  | scalar (.int n) => Text.ofInt n
  | scalar .real => "-0".toList
  | scalar (.string (some t)) => quote t
  | scalar (.string none) => "\"\\ud800\"".toList
  | scalar (.array _) => []
  | scalar (.object _) => []

mutual

def tokens : Json → List Token
  | array items => .openArray :: separate .comma (tokensOfItems items) ++ [.closeArray]
  | object members => .openObject :: separate .comma (tokensOfMembers members) ++ [.closeObject]
  | value => [.scalar value]

def tokensOfItems : List Json → List (List Token)
  | [] => []
  | item :: rest => tokens item :: tokensOfItems rest

def tokensOfMembers : List (Option Text × Json) → List (List Token)
  | [] => []
  | (key, value) :: rest =>
    (.scalar (.string key) :: .colon :: tokens value) :: tokensOfMembers rest

end

def write (value : Json) : Text := value.tokens.flatMap Token.write

def memberTokens (member : Option Text × Json) : List Token :=
  .scalar (.string member.1) :: .colon :: member.2.tokens

theorem tokensOfItems_eq (items : List Json) : tokensOfItems items = items.map tokens := by
  induction items with
  | nil => rfl
  | cons item rest ih => rw [tokensOfItems, ih, List.map_cons]

theorem tokensOfMembers_eq (members : List (Option Text × Json)) :
    tokensOfMembers members = members.map memberTokens := by
  induction members with
  | nil => rfl
  | cons member rest ih =>
    rw [tokensOfMembers, ih, List.map_cons]
    rfl

/-- What holds of the values without parts, and of arrays and objects whenever it holds of their
parts, holds of every value. -/
@[elab_as_elim]
theorem induction {P : Json → Prop} (scalar : ∀ v : Json, v.tokens = [.scalar v] → P v)
    (array : ∀ items, (∀ v ∈ items, P v) → P (.array items))
    (object : ∀ members, (∀ m ∈ members, P m.2) → P (.object members)) (value : Json) : P value :=
  match value with
  | .array items => array items fun v _ => induction scalar array object v
  | .object members => object members fun m _ => induction scalar array object m.2
  | .null | .bool _ | .int _ | .real | .string _ => scalar _ rfl
termination_by sizeOf value
decreasing_by
  · rename_i h
    have := List.sizeOf_lt_of_mem h
    rw [Json.array.sizeOf_spec]
    omega
  · rename_i h
    have hmember := List.sizeOf_lt_of_mem h
    have hparts : sizeOf m = 1 + sizeOf m.1 + sizeOf m.2 := rfl
    rw [Json.object.sizeOf_spec]
    omega

end Json
end ImagePreview

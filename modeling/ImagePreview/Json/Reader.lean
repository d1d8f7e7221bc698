import ImagePreview.Json.Scanner

/-!
Reading a JSON text. The tokens are taken one by one, with the arrays and objects that are still
open held in a list, so that nesting may go as deep as it likes.
-/
namespace ImagePreview.Json

/-- An array or object around the value in progress. What it holds so far is listed last first. -/
inductive Frame
  | array (items : List Json)
  | object (members : List (Option Text × Json)) (key : Option Text)

inductive Due
  /-- A value; after `[` the array may also end. -/
  | value (opened : Bool)
  /-- A key; after `{` the object may also end. -/
  | key (opened : Bool) (members : List (Option Text × Json))
  /-- The colon after a key. -/
  | colon (members : List (Option Text × Json)) (key : Option Text)
  /-- A value is complete, and the rest of what surrounds it follows. -/
  | after (value : Json)

structure Progress where
  frames : List Frame := []
  due : Due := .value false

def Progress.step (p : Progress) (token : Token) : Option Progress :=
  match p.due, token, p.frames with
  | .value _, .scalar v, frames => some ⟨frames, .after v⟩
  | .value _, .openArray, frames => some ⟨.array [] :: frames, .value true⟩
  | .value _, .openObject, frames => some ⟨frames, .key true []⟩
  | .value true, .closeArray, .array items :: frames => some ⟨frames, .after (.array items.reverse)⟩
  | .key _ members, .scalar (.string k), frames => some ⟨frames, .colon members k⟩
  | .key true members, .closeObject, frames => some ⟨frames, .after (.object members.reverse)⟩
  | .colon members k, .colon, frames => some ⟨.object members k :: frames, .value false⟩
  | .after v, .comma, .array items :: frames => some ⟨.array (v :: items) :: frames, .value false⟩
  | .after v, .closeArray, .array items :: frames =>
    some ⟨frames, .after (.array (v :: items).reverse)⟩
  | .after v, .comma, .object members k :: frames => some ⟨frames, .key false ((k, v) :: members)⟩
  | .after v, .closeObject, .object members k :: frames =>
    some ⟨frames, .after (.object ((k, v) :: members).reverse)⟩
  | _, _, _ => none

def Progress.value? (p : Progress) : Option Json :=
  match p.frames, p.due with
  | [], .after v => some v
  | _, _ => none

def ofTokens? (tokens : List Token) : Option Json :=
  (tokens.foldlM Progress.step {}).bind Progress.value?

def read? (t : Text) : Option Json := (scan t).bind ofTokens?

end ImagePreview.Json

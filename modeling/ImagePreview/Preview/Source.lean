import ImagePreview.Preview.Basic
import ImagePreview.Settings.Basic

/-!
Where previews come from. A source may answer the same lookup differently from one time to the next,
so an answer depends on the lookups before it.
-/
namespace ImagePreview

structure Lookup where
  url : Text
  limits : SizeLimits
  /-- The smaller preview for small screens is wanted. -/
  mobile : Bool
deriving DecidableEq

inductive LookupError
  | sourceUnavailable (reason : Text)
  | encodeFailed (reason : Text)
deriving DecidableEq

def LookupError.message : LookupError → Text
  | sourceUnavailable reason => "Source image unavailable: ".toList ++ reason
  | encodeFailed reason => "Encoding failed: ".toList ++ reason

/-- A preview, or none for now. -/
abbrev Answer := Except LookupError (Option Preview)

/-- What is answered to a lookup after the lookups made before, oldest first. -/
abbrev Source := List Lookup → Lookup → Answer

namespace Source

def steady (answer : Lookup → Answer) : Source := fun _ lookup => answer lookup

def constant (answer : Answer) : Source := steady fun _ => answer

end Source
end ImagePreview

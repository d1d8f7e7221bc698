import ImagePreview.Preview.Source

/-!
Previews prepared ahead of time, for large and for small screens, and the images known to fail.
-/
namespace ImagePreview

/-- Entries are listed newest first, and the newest for a url counts. -/
structure Catalogue where
  large : List (Text × Preview) := []
  small : List (Text × Preview) := []
  failing : List (Text × Text) := []

namespace Catalogue

variable (catalogue : Catalogue)

def insert (url : Text) (preview : Preview) : Catalogue :=
  { catalogue with large := (url, preview) :: catalogue.large }

def insertSmall (url : Text) (preview : Preview) : Catalogue :=
  { catalogue with small := (url, preview) :: catalogue.small }

def insertFailure (url reason : Text) : Catalogue :=
  { catalogue with failing := (url, reason) :: catalogue.failing }

/-- The preview listed for a lookup, whatever its size: a small one if wanted and at hand. -/
def listed? (lookup : Lookup) : Option Preview :=
  if lookup.mobile then
    (catalogue.small.lookup lookup.url).or (catalogue.large.lookup lookup.url)
  else catalogue.large.lookup lookup.url

def answer (lookup : Lookup) : Answer :=
  match catalogue.failing.lookup lookup.url with
  | some reason => .error (.encodeFailed reason)
  | none => .ok ((catalogue.listed? lookup).filter fun preview =>
      lookup.limits.admits preview.byteSize)

def source : Source := .steady catalogue.answer

end Catalogue
end ImagePreview

/-!
The script libraries that a document with previews may carry.
-/
namespace ImagePreview

inductive Library
  /-- Puts previews into their images. -/
  | previews
  /-- Puts the full images back in place of the previews. -/
  | fullImages
  /-- Loads images when they come into view. -/
  | lazyImages
  /-- Announces that scripts run late. -/
  | deferral
deriving DecidableEq

end ImagePreview

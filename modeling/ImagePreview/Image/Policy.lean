import ImagePreview.Client
import ImagePreview.Preview.Source

/-!
How the images of one document are treated. This follows from the settings and from what the client
can do, and stays the same for the whole document.
-/
namespace ImagePreview

inductive Mode
  /-- Into a script, which puts it into the image. -/
  | scripted
  /-- Into the image element. -/
  | inline
deriving DecidableEq

structure Policy where
  settings : Settings
  /-- The sizes of previews that are shown, whatever the source answers. -/
  accepted : SizeLimits
  mode : Mode
  /-- Previews for small screens are asked for. -/
  mobilePreviews : Bool
  /-- Images without a preview load when they come into view. -/
  lazyload : Bool
  /-- Full images load in place of previews when they come into view. -/
  lazyFullImages : Bool
deriving DecidableEq

namespace Policy

/-- Full images that load when they come into view need the script that puts them back. -/
def of (settings : Settings) (capability : Capability) : Policy where
  settings := settings
  accepted := settings.limits
  mode :=
    if settings.inlinePreviews && !(settings.lazyFullImages && capability.mobile) then .inline
    else .scripted
  mobilePreviews := capability.mobile && settings.mobilePreviews
  lazyload := settings.lazyImages && capability.lazyload
  lazyFullImages := settings.lazyFullImages && capability.mobile

def lookup (policy : Policy) (url : Text) : Lookup :=
  ⟨url, policy.settings.limits, policy.mobilePreviews⟩

end Policy
end ImagePreview

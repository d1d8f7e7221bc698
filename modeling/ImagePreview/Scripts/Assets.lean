import ImagePreview.Scripts.Commented
import ImagePreview.Scripts.Compact

/-!
What a document with previews takes from the server: script libraries, in a compact and in a
commented form, and the urls of the blank image and of the script that runs late scripts.
-/
namespace ImagePreview

structure Assets where
  /-- A library, in the form for debugging or in the usual one. -/
  script : Library → Bool → Text
  blankImageUrl : Text
  /-- The loader of late scripts, for debugging or the usual one. -/
  deferLoaderUrl : Bool → Text

namespace Assets

def below (base : Text) : Assets where
  script library debug := if debug then library.commented else library.compact
  blankImageUrl := base ++ "/1.0.gif".toList
  deferLoaderUrl debug :=
    base ++ if debug then "/js_defer_debug.0.js".toList else "/js_defer.0.js".toList

def usual : Assets := below "/psajs".toList

/-- Static files from elsewhere; slashes at the end of the url do not count. -/
def servedFrom (base : Text) : Assets := below (base.reverse.dropWhile (· == '/')).reverse

end Assets
end ImagePreview

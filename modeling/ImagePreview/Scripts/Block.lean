import ImagePreview.Scripts.Assets
import ImagePreview.Scripts.PlainUrl
import ImagePreview.Text.JsLiteral
import ImagePreview.Text.Reference

/-!
The blocks that are put into a document: scripts, and the note for clients that run none. Which
block is due is decided elsewhere; how it is written depends on the assets and on whether the
scripts are being debugged.
-/
namespace ImagePreview

structure Registration where
  url : Text
  dataUri : Text
deriving DecidableEq

inductive Block
  /-- The library that puts previews in. -/
  | previewLibrary
  /-- Previews for images further up, put in at once. -/
  | registrations (entries : List Registration)
  /-- Puts the full images back, either at once or each when it comes into view. -/
  | activation (whenSeen : Bool)
  /-- The library that loads images when they come into view. -/
  | lazyLibrary
  /-- Lets other scripts see the images that are not loaded yet. -/
  | lazyOverride
  /-- Announces that scripts run late. -/
  | deferHead
  /-- Runs the late scripts. -/
  | deferLoader
  /-- Sends clients without scripts to the plain document. -/
  | fallback (documentUrl : Text)
deriving DecidableEq

namespace Block

def scriptOpen : Text := "<script type=\"text/javascript\">".toList

def promptOpen : Text := "<script type=\"text/javascript\" pagespeed_no_defer=\"\">".toList

def scriptClose : Text := "</script>".toList

def registrationCall (entry : Registration) : Text :=
  "\npagespeed.delayImagesInline.addLowResImages('".toList ++ Text.JsLiteral.escape entry.url ++
    "', '".toList ++ Text.JsLiteral.escape entry.dataUri ++ "');".toList

def replaceCall : Text := "\npagespeed.delayImagesInline.replaceWithLowRes();\n".toList

def activationCall (whenSeen : Bool) : Text :=
  if whenSeen then "\npagespeed.delayImages.registerLazyLoadHighRes();\n".toList
  else "\npagespeed.delayImages.replaceWithHighRes();\n".toList

def lazyCall (blankUrl : Text) : Text :=
  "\npagespeed.lazyLoadInit(false, \"".toList ++ Text.JsLiteral.escape blankUrl ++ "\");\n".toList

def note (url : Text) : Text :=
  "<noscript><meta HTTP-EQUIV=\"refresh\" content=\"0;url='".toList ++ url ++
    "'\"><style><!--table,div,span,font,p\x7bdisplay:none\x7d --></style>".toList ++
    "<div style=\"display:block\">Please click <a href=\"".toList ++ url ++
    "\">here</a> if you are not redirected within a few seconds.</div></noscript>".toList

def write (assets : Assets) (debug : Bool) : Block → Text
  | previewLibrary =>
    scriptOpen ++ assets.script .previews debug ++
      "\npagespeed.delayImagesInlineInit();\n".toList ++ scriptClose
  | registrations entries =>
    scriptOpen ++ entries.flatMap registrationCall ++ replaceCall ++ scriptClose
  | activation whenSeen =>
    scriptOpen ++ assets.script .fullImages debug ++ "\npagespeed.delayImagesInit();\n".toList ++
      activationCall whenSeen ++ scriptClose
  | lazyLibrary =>
    promptOpen ++ assets.script .lazyImages debug ++ lazyCall assets.blankImageUrl ++ scriptClose
  | lazyOverride =>
    promptOpen ++ "pagespeed.lazyLoadImages.overrideAttributeFunctions();".toList ++ scriptClose
  | deferHead => promptOpen ++ assets.script .deferral debug ++ scriptClose
  | deferLoader =>
    "<script type=\"text/javascript\" src=\"".toList ++
      Text.Reference.encode (assets.deferLoaderUrl debug) ++ "\"></script>".toList
  | fallback documentUrl => note (Text.Reference.encodeQuoted (plainUrl documentUrl))

theorem write_ne_nil (assets : Assets) (debug : Bool) (b : Block) : b.write assets debug ≠ [] := by
  have hclose : scriptClose ≠ [] := by decide
  cases b with
  | deferLoader | fallback url => exact List.append_ne_nil_of_right_ne_nil _ (by decide)
  | _ => exact List.append_ne_nil_of_right_ne_nil _ hclose

end Block
end ImagePreview

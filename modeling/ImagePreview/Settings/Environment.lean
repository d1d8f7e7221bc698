import ImagePreview.Settings.Basic
import ImagePreview.Text.Blank
import ImagePreview.Text.Digits

/-!
Settings from environment variables. Each variable is read by itself: one that is missing, or whose
value cannot be read, leaves its setting at the default.
-/
namespace ImagePreview.Settings

abbrev Environment := Text → Option Text

def Key.variable : Key → Text
  | least => "PREVIEW_MIN_LOW_RES_BYTES".toList
  | most => "PREVIEW_MAX_LOW_RES_BYTES".toList
  | maxIndex => "PREVIEW_MAX_INLINED_INDEX".toList
  | deferScripts => "PREVIEW_DEFER_JAVASCRIPT".toList
  | lazyImages => "PREVIEW_LAZYLOAD_IMAGES".toList
  | lazyFullImages => "PREVIEW_LAZYLOAD_HIGHRES_IMAGES".toList
  | inlinePreviews => "PREVIEW_EXPERIMENTAL_INLINE".toList
  | mobilePreviews => "PREVIEW_AGGRESSIVE_MOBILE".toList
  | keepDocument => "PREVIEW_PRESERVE_URLS".toList
  | debug => "PREVIEW_DEBUG".toList

def yesWords : List Text := ["1".toList, "true".toList, "on".toList, "yes".toList]

def noWords : List Text := ["0".toList, "false".toList, "off".toList, "no".toList]

def flag? (t : Text) : Option Bool :=
  if yesWords.contains (Text.lower t) then some true
  else if noWords.contains (Text.lower t) then some false
  else none

def Environment.read (env : Environment) (parse : Text → Option α) (key : Key) (usual : α) : α :=
  ((env key.variable).bind fun value => parse (Text.trim value)).getD usual

def ofEnvironment (env : Environment) : Settings where
  limits :=
    { least := env.read Text.toUInt64? .least ({} : SizeLimits).least
      most := env.read Text.toUInt64? .most ({} : SizeLimits).most }
  maxIndex := env.read Text.toInt64? .maxIndex ({} : Settings).maxIndex
  deferScripts := env.read flag? .deferScripts ({} : Settings).deferScripts
  lazyImages := env.read flag? .lazyImages ({} : Settings).lazyImages
  lazyFullImages := env.read flag? .lazyFullImages ({} : Settings).lazyFullImages
  inlinePreviews := env.read flag? .inlinePreviews ({} : Settings).inlinePreviews
  mobilePreviews := env.read flag? .mobilePreviews ({} : Settings).mobilePreviews
  keepDocument := env.read flag? .keepDocument ({} : Settings).keepDocument
  debug := env.read flag? .debug ({} : Settings).debug

end ImagePreview.Settings

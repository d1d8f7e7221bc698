import ImagePreview.Json.Reader
import ImagePreview.Settings.Basic

/-!
Settings from a JSON text: an object with any of the settings by name, other members being ignored,
or an array of their values in order. A setting given twice or with a value of the wrong kind makes
the whole text unreadable.
-/
namespace ImagePreview.Settings

def Key.name : Key → Text
  | least => "min_low_res_bytes".toList
  | most => "max_low_res_bytes".toList
  | maxIndex => "max_inlined_index".toList
  | deferScripts => "defer_javascript".toList
  | lazyImages => "lazyload_images".toList
  | lazyFullImages => "lazyload_highres_images".toList
  | inlinePreviews => "experimental_inline_preview".toList
  | mobilePreviews => "aggressive_mobile".toList
  | keepDocument => "preserve_urls".toList
  | debug => "debug".toList

def size? : Json → Option UInt64
  | .int n => Text.unsigned64? n
  | _ => none

def index? : Json → Option Int64
  | .int n => Text.signed64? n
  | _ => none

def switch? : Json → Option Bool
  | .bool b => some b
  | _ => none

def only? (parse : Json → Option α) (usual : α) : List Json → Option α
  | [] => some usual
  | [value] => parse value
  | _ => none

def ofValues? (given : Key → List Json) : Option Settings := do
  let usual : Settings := {}
  let least ← only? size? usual.limits.least (given .least)
  let most ← only? size? usual.limits.most (given .most)
  let maxIndex ← only? index? usual.maxIndex (given .maxIndex)
  let deferScripts ← only? switch? usual.deferScripts (given .deferScripts)
  let lazyImages ← only? switch? usual.lazyImages (given .lazyImages)
  let lazyFullImages ← only? switch? usual.lazyFullImages (given .lazyFullImages)
  let inlinePreviews ← only? switch? usual.inlinePreviews (given .inlinePreviews)
  let mobilePreviews ← only? switch? usual.mobilePreviews (given .mobilePreviews)
  let keepDocument ← only? switch? usual.keepDocument (given .keepDocument)
  let debug ← only? switch? usual.debug (given .debug)
  return { limits := ⟨least, most⟩, maxIndex, deferScripts, lazyImages, lazyFullImages,
           inlinePreviews, mobilePreviews, keepDocument, debug }

/-- Every key of an object has to be text; an array holds no more values than there are
settings. -/
def ofJson? : Json → Option Settings
  | .object members =>
    if members.all fun member => member.1.isSome then
      ofValues? fun key => (members.filter fun member => member.1 == some key.name).map Prod.snd
    else none
  | .array items =>
    if items.length ≤ Key.all.length then
      ofValues? fun key => (items[Key.all.idxOf key]?).toList
    else none
  | _ => none

def ofJsonText? (t : Text) : Option Settings := (Json.read? t).bind ofJson?

end ImagePreview.Settings

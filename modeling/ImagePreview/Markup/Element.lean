import ImagePreview.Markup.Tag
import ImagePreview.Text.Blank

/-!
The elements that matter for previews, told from their start tags.
-/
namespace ImagePreview.Markup

inductive Element
  | image
  /-- A button that shows an image. -/
  | imageInput
  | noscript
  | head
  | body
  | other
deriving DecidableEq

def Element.isImage : Element → Bool
  | image => true
  | imageInput => true
  | _ => false

/-- Neither the case of a name nor blanks around the type matter. -/
def StartTag.element (tag : StartTag) : Element :=
  if tag.isNamed "img".toList then .image
  else if tag.isNamed "input".toList then
    if (tag.get? "type".toList).any fun t => Text.sameWord (Text.trim t) "image".toList then
      .imageInput
    else .other
  else if tag.isNamed "noscript".toList then .noscript
  else if tag.isNamed "head".toList then .head
  else if tag.isNamed "body".toList then .body
  else .other

/-- Besides its name, only the type of a tag matters. -/
theorem StartTag.element_congr {a b : StartTag} (hname : a.name = b.name)
    (htype : (a.get? "type".toList).any (fun t => Text.sameWord (Text.trim t) "image".toList) =
      (b.get? "type".toList).any fun t => Text.sameWord (Text.trim t) "image".toList) :
    a.element = b.element := by
  have hnamed : a.isNamed = b.isNamed := by
    funext word
    rw [isNamed, isNamed, hname]
  rw [element, element, htype, hnamed]

end ImagePreview.Markup

import ImagePreview.Image.Policy
import ImagePreview.Markup.Tag
import ImagePreview.Text.Reference

/-!
The forms an image element takes to show a preview, and to be loaded when it comes into view. In
either case the source moves to an attribute of its own, from where a script takes it later.
-/
namespace ImagePreview

open Markup

/-- Holds the source of an image that has a preview. -/
def fullAttribute : Text := "pagespeed_high_res_src".toList

/-- Holds the source of an image that is not loaded yet. -/
def lazyAttribute : Text := "pagespeed_lazy_src".toList

def sourceAttribute : Text := "src".toList

def onloadAttribute : Text := "onload".toList

def swapHandler : Text :=
  ("var elem=this;setTimeout(function()\x7belem.onload=null;" ++
    "elem.src=elem.getAttribute('pagespeed_high_res_src');\x7d,0);").toList

def viewHandler : Text := "pagespeed.lazyLoadImages.loadIfVisible(this);".toList

/-- An image with a preview. In scripted mode the script adds the preview, and a placeholder stands
in for it if one is given. -/
def Markup.StartTag.withPreview (tag : StartTag) (mode : Mode) (preview : Preview)
    (placeholder : Option Text) : StartTag :=
  let tag := tag.rename sourceAttribute fullAttribute
  match mode with
  | .inline =>
    (tag.push sourceAttribute preview.dataUri).push onloadAttribute swapHandler
  | .scripted =>
    match placeholder with
    | some url => tag.push sourceAttribute (Text.Reference.encode url)
    | none => tag

def Markup.StartTag.asPlaceholder (tag : StartTag) (blankUrl : Text) : StartTag :=
  ((tag.rename sourceAttribute lazyAttribute).push sourceAttribute
    (Text.Reference.encode blankUrl)).push onloadAttribute viewHandler

/-- An image with a preview, wherever that is put, keeps its source in an attribute of its own. -/
theorem get?_withPreview {tag : StartTag} {value : Text} (h : tag.has fullAttribute = false)
    (hv : tag.get? sourceAttribute = some value) (mode : Mode) (preview : Preview)
    (placeholder : Option Text) :
    (tag.withPreview mode preview placeholder).get? fullAttribute = some value := by
  have hmoved : (tag.rename sourceAttribute fullAttribute).get? fullAttribute = some value := by
    rw [StartTag.get?_rename h, hv]
  cases mode with
  | inline => exact StartTag.get?_push (StartTag.get?_push hmoved)
  | scripted =>
    cases placeholder with
    | none => exact hmoved
    | some url => exact StartTag.get?_push hmoved

theorem get?_asPlaceholder {tag : StartTag} {value : Text} (h : tag.has lazyAttribute = false)
    (hv : tag.get? sourceAttribute = some value) (blankUrl : Text) :
    (tag.asPlaceholder blankUrl).get? lazyAttribute = some value := by
  have hmoved : (tag.rename sourceAttribute lazyAttribute).get? lazyAttribute = some value := by
    rw [StartTag.get?_rename h, hv]
  exact StartTag.get?_push (StartTag.get?_push hmoved)

theorem has_withPreview {tag : StartTag} (h : tag.has sourceAttribute = true) (mode : Mode)
    (preview : Preview) (placeholder : Option Text) :
    (tag.withPreview mode preview placeholder).has fullAttribute = true := by
  have hmoved : (tag.rename sourceAttribute fullAttribute).has fullAttribute = true :=
    StartTag.has_rename_self h
  cases mode with
  | inline => simp [StartTag.withPreview, StartTag.has_push, hmoved]
  | scripted => cases placeholder <;> simp [StartTag.withPreview, StartTag.has_push, hmoved]

theorem has_asPlaceholder {tag : StartTag} (h : tag.has fullAttribute = false) (blankUrl : Text) :
    (tag.asPlaceholder blankUrl).has fullAttribute = false := by
  have hlazy : Text.sameWord lazyAttribute fullAttribute = false := by decide
  have hsource : Text.sameWord sourceAttribute fullAttribute = false := by decide
  have honload : Text.sameWord onloadAttribute fullAttribute = false := by decide
  rw [StartTag.asPlaceholder, StartTag.has_push, StartTag.has_push,
    StartTag.has_rename_of_not h hlazy, hsource, honload]
  rfl

end ImagePreview

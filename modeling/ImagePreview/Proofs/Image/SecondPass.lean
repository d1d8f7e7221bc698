import ImagePreview.Proofs.Image.Lookups
import ImagePreview.Proofs.Log.Report
import ImagePreview.Proofs.Markup.Rereading

/-!
Images that were rewritten and are read again. An image in any of the forms carries the mark of its
treatment and is an image still, also behind the quoting of its values; so whatever meets it next
leaves it as it is.
-/
namespace ImagePreview

open Markup

namespace Markup

namespace StartTag

def isMarked (tag : StartTag) : Bool := tag.has fullAttribute || tag.has lazyAttribute

variable {tag : StartTag}

/-- A form that a treatment gave a tag. It is put together anew, and the element stays the same. -/
structure Rewritten (tag form : StartTag) : Prop where
  plain : form.IsPlain
  source : form.source = none
  element : form.element = tag.element
  marked : form.isMarked = true

theorem Rewritten.rename (h : tag.IsPlain) (hsource : tag.has sourceAttribute = true) {mark : Text}
    (hmark : mark = fullAttribute ∨ mark = lazyAttribute) :
    tag.Rewritten (tag.rename sourceAttribute mark) := by
  have hhas : (tag.rename sourceAttribute mark).has mark = true := has_rename_self hsource
  have hname : (tag.rename sourceAttribute mark).name = tag.name := by
    rw [StartTag.rename]
    split <;> rfl
  have hnone : (tag.rename sourceAttribute mark).source = none := by
    rw [StartTag.rename, if_pos hsource]
  have hplain : PlainName mark := by rcases hmark with rfl | rfl <;> decide
  have htype : Text.sameWord mark "type".toList = false := by
    rcases hmark with rfl | rfl <;> decide
  refine ⟨h.rename _ hplain, hnone, element_congr hname ?_, ?_⟩
  · rw [get?_rename_of_ne (by decide) htype]
  · rcases hmark with rfl | rfl <;> simp [isMarked, hhas]

theorem Rewritten.push {form : StartTag} (h : tag.Rewritten form) {name : Text}
    (hname : name = sourceAttribute ∨ name = onloadAttribute) (value : Text) :
    tag.Rewritten (form.push name value) := by
  have hplain : PlainName name := by rcases hname with rfl | rfl <;> decide
  have htype : Text.sameWord name "type".toList = false := by
    rcases hname with rfl | rfl <;> decide
  refine ⟨h.plain.push hplain value, rfl, ?_, ?_⟩
  · rw [← h.element]
    exact element_congr rfl (by rw [get?_push_of_ne htype])
  · have hmarked := h.marked
    rw [isMarked, Bool.or_eq_true] at hmarked
    rcases hmarked with hfull | hlazy
    · simp [isMarked, has_push, hfull]
    · simp [isMarked, has_push, hlazy]

theorem Rewritten.withPreview (h : tag.IsPlain) (hsource : tag.has sourceAttribute = true)
    (mode : Mode) (preview : Preview) (placeholder : Option Text) :
    tag.Rewritten (tag.withPreview mode preview placeholder) := by
  have hmoved := Rewritten.rename h hsource (Or.inl rfl)
  cases mode with
  | inline => exact (hmoved.push (Or.inl rfl) _).push (Or.inr rfl) _
  | scripted =>
    cases placeholder with
    | some blank => exact hmoved.push (Or.inl rfl) _
    | none => exact hmoved

theorem Rewritten.asPlaceholder (h : tag.IsPlain) (hsource : tag.has sourceAttribute = true)
    (blank : Text) : tag.Rewritten (tag.asPlaceholder blank) :=
  ((Rewritten.rename h hsource (Or.inr rfl)).push (Or.inl rfl) _).push (Or.inr rfl) _

end StartTag
end Markup

namespace Sample

def inlined : Document := .start classify { settings with inlinePreviews := true } [] []

end Sample

end ImagePreview

import ImagePreview.Proofs.Document.Moment
import Mathlib.Data.List.Basic

/-!
The source that a browser takes for an image: its first `src` attribute, whatever `src` attributes
stand behind that one. A treatment moves the first one away and adds its own at the end, so an image
shows what it is meant to show unless it came with a second one.
-/
namespace ImagePreview

open Markup

namespace Markup

theorem Attribute.filter_rename_self {old new : Text} {attributes : List Attribute}
    (h : (attributes.any fun a => a.isNamed old) = true) (hne : Text.sameWord new old = false) :
    (rename old new attributes).filter (fun a => a.isNamed old) =
      (attributes.filter fun a => a.isNamed old).tail := by
  obtain ⟨front, a, rear, rfl, hfront, ha, hrename⟩ := exists_rename new h
  have hnot : ({ a with name := new } : Attribute).isNamed old = false := hne
  have hnone : front.filter (fun b => b.isNamed old) = [] := by simpa using hfront
  simp [hrename, hnot, hnone, ha]

namespace StartTag

def named (tag : StartTag) (name : Text) : List Attribute :=
  tag.attributes.filter fun a => a.isNamed name

variable {tag : StartTag} {old new name : Text}

theorem get?_eq_head? :
    tag.get? name = (tag.named name).head?.map fun a => a.value.getD [] := by
  rw [get?, named, List.head?_filter]

theorem named_of_not_has (h : tag.has name = false) : tag.named name = [] := by
  rw [named, List.filter_eq_nil_iff]
  simpa [has] using h

theorem named_rename_self (hne : Text.sameWord new old = false) :
    (tag.rename old new).named old = (tag.named old).tail := by
  cases ho : tag.has old with
  | true =>
    rw [rename, if_pos ho]
    exact Attribute.filter_rename_self ho hne
  | false =>
    rw [rename, ho, if_neg Bool.false_ne_true, named_of_not_has ho]
    rfl

theorem named_push_self (value : Text) :
    (tag.push name value).named name = tag.named name ++ [⟨name, some value⟩] := by
  simp [named, push, withAttribute, Attribute.isNamed]

theorem named_push_of_ne (hne : Text.sameWord new name = false) (value : Text) :
    (tag.push new value).named name = tag.named name := by
  simp [named, push, withAttribute, Attribute.isNamed, hne]

end StartTag
end Markup

def Mode.source? (mode : Mode) (preview : Preview) (placeholder : Option Text) : Option Text :=
  match mode with
  | .inline => some preview.dataUri
  | .scripted => placeholder.map Text.Reference.encode

def sourceAttributes (source : Option Text) : List Attribute :=
  source.toList.map fun value => ⟨sourceAttribute, some value⟩

section Forms

variable (tag : StartTag) (mode : Mode) (preview : Preview) (placeholder : Option Text)
  (blankUrl : Text)

/-- The sources of an image with a preview are those behind its first one, and then the new one. -/
theorem named_withPreview :
    (tag.withPreview mode preview placeholder).named sourceAttribute =
      (tag.named sourceAttribute).tail ++ sourceAttributes (mode.source? preview placeholder) := by
  have hfull : Text.sameWord fullAttribute sourceAttribute = false := by decide
  have honload : Text.sameWord onloadAttribute sourceAttribute = false := by decide
  have hmoved := @StartTag.named_rename_self tag _ _ hfull
  cases mode with
  | inline =>
    rw [StartTag.withPreview, StartTag.named_push_of_ne honload, StartTag.named_push_self, hmoved]
    rfl
  | scripted =>
    cases placeholder with
    | none => simpa [StartTag.withPreview, sourceAttributes, Mode.source?] using hmoved
    | some url =>
      rw [StartTag.withPreview, StartTag.named_push_self, hmoved]
      rfl

theorem named_asPlaceholder :
    (tag.asPlaceholder blankUrl).named sourceAttribute =
      (tag.named sourceAttribute).tail ++
        sourceAttributes (some (Text.Reference.encode blankUrl)) := by
  have hlazy : Text.sameWord lazyAttribute sourceAttribute = false := by decide
  have honload : Text.sameWord onloadAttribute sourceAttribute = false := by decide
  rw [StartTag.asPlaceholder, StartTag.named_push_of_ne honload, StartTag.named_push_self,
    StartTag.named_rename_self hlazy]
  rfl

end Forms

/-- The value of a second `src` attribute. -/
def Markup.StartTag.spareSource? (tag : StartTag) : Option Text :=
  (tag.named sourceAttribute).tail.head?.map fun a => a.value.getD []

/-- What becomes of the sources of a tag in a form that keeps the first one under another name and
is to show `source`. -/
structure MovedSource (tag form : StartTag) (name : Text) (source : Option Text) : Prop where
  kept : form.get? name = tag.get? sourceAttribute
  /-- Those behind the first one stay where they are. -/
  sources : form.named sourceAttribute =
    (tag.named sourceAttribute).tail ++ sourceAttributes source
  first : form.get? sourceAttribute = tag.spareSource?.or source
  shown_iff : form.get? sourceAttribute = source ↔
    tag.spareSource? = none ∨ tag.spareSource? = source

theorem MovedSource.of_named {tag form : StartTag} {name : Text} {source : Option Text}
    (hkept : form.get? name = tag.get? sourceAttribute)
    (hsources : form.named sourceAttribute =
      (tag.named sourceAttribute).tail ++ sourceAttributes source) :
    MovedSource tag form name source := by
  have hfirst : form.get? sourceAttribute = tag.spareSource?.or source := by
    rw [StartTag.get?_eq_head?, hsources, StartTag.spareSource?]
    cases (tag.named sourceAttribute).tail with
    | nil => cases source <;> rfl
    | cons a rest => rfl
  refine ⟨hkept, hsources, hfirst, ?_⟩
  rw [hfirst]
  cases tag.spareSource? with
  | none => simp
  | some value => simp

/-- A candidate that is treated shows the source of its treatment, the preview or what stands in for
it, exactly if no second source came with it, or one with the same value. Its own source is kept
under another name. -/
theorem shown_source_iff {policy : Policy} {tag : StartTag} {url : Text}
    (h : candidate? policy tag = some url) (mode : Mode) (preview : Preview)
    (placeholder : Option Text) (blankUrl : Text) :
    MovedSource tag (tag.withPreview mode preview placeholder) fullAttribute
        (mode.source? preview placeholder) ∧
      MovedSource tag (tag.asPlaceholder blankUrl) lazyAttribute
        (some (Text.Reference.encode blankUrl)) := by
  obtain ⟨hfull, value, hvalue, -⟩ := source_of_candidate h
  have hlazy : tag.has lazyAttribute = false := by
    cases hmarked : tag.has lazyAttribute with
    | false => rfl
    | true =>
      rw [candidate?_of_marked (by rw [hmarked, Bool.or_true])] at h
      contradiction
  constructor
  · refine .of_named ?_ (named_withPreview tag mode preview placeholder)
    rw [hvalue]
    exact get?_withPreview hfull hvalue mode preview placeholder
  · refine .of_named ?_ (named_asPlaceholder tag blankUrl)
    rw [hvalue]
    exact get?_asPlaceholder hlazy hvalue blankUrl

namespace Sample

def described : StartTag :=
  { name := "IMG".toList
    attributes := [⟨"alt".toList, none⟩, ⟨"SRC".toList, some "a".toList⟩,
      ⟨"srcset".toList, some "b".toList⟩] }

def twofold : Text := "<img src=\"a\" SRC=\"a\"/>".toList

end Sample

theorem sample_shown_source :
    candidate? Sample.document.policy Sample.described = some "a".toList ∧
      (Sample.described.withPreview .inline Sample.preview none).get? sourceAttribute =
        some "data:image/png;base64,AA==".toList := by
  have hcandidate : candidate? Sample.document.policy Sample.described = some "a".toList := by
    decide +kernel
  obtain ⟨hmoved, -⟩ := shown_source_iff hcandidate .inline Sample.preview none []
  have hspare : Sample.described.spareSource? = none := by decide +kernel
  refine ⟨hcandidate, (hmoved.shown_iff.mpr (Or.inl hspare)).trans ?_⟩
  decide +kernel

/-- An image that comes with two sources shows the second one, not its preview. -/
theorem not_always_shown :
    ¬ ∀ (html : Text) (tag : StartTag) (policy : Policy) (url : Text) (mode : Mode)
        (preview : Preview) (placeholder : Option Text),
      tokens html = .ok [.startTag tag] → candidate? policy tag = some url →
        (tag.withPreview mode preview placeholder).get? sourceAttribute =
          mode.source? preview placeholder := by
  intro h
  let tag : StartTag :=
    { name := "img".toList
      attributes := [⟨"src".toList, some "a".toList⟩, ⟨"SRC".toList, some "a".toList⟩]
      selfClosing := true
      source := some Sample.twofold }
  have hread : tokens Sample.twofold = .ok [.startTag tag] := by decide +kernel
  have hcandidate : candidate? Sample.document.policy tag = some "a".toList := by decide +kernel
  have hshown := h Sample.twofold tag Sample.document.policy _ .inline Sample.preview none hread
    hcandidate
  have hsecond : (tag.withPreview .inline Sample.preview none).get? sourceAttribute =
      some "a".toList := by decide +kernel
  rw [hsecond] at hshown
  contradiction

end ImagePreview

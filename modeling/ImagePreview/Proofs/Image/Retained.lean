import ImagePreview.Proofs.Document.Parts
import ImagePreview.Proofs.Image.ShownSource
import ImagePreview.Proofs.Log.Report

/-!
What an image keeps. A treatment moves its first source to another name and writes attributes behind
all others: a source at the most, and a handler where there was none. All else of the tag, and every
tag that is not treated, stays as it arrived.
-/
namespace ImagePreview

open Markup

namespace Markup

theorem StartTag.named_rename_of_ne {tag : StartTag} {old new name : Text}
    (hold : Text.sameWord old name = false) (hnew : Text.sameWord new name = false) :
    (tag.rename old new).named name = tag.named name := by
  rw [rename]
  split
  · rename_i h
    exact Attribute.filter_rename_of_ne h hold hnew
  · rfl

end Markup

namespace Treatment

def sourceName? : Treatment → Option Text
  | preview _ _ => some fullAttribute
  | placeholder => some lazyAttribute
  | none => Option.none

def source? (policy : Policy) (assets : Assets) : Treatment → Option Text
  | preview _ p =>
    policy.mode.source? p (if policy.lazyFullImages then some assets.blankImageUrl else Option.none)
  | placeholder => some (Text.Reference.encode assets.blankImageUrl)
  | none => Option.none

def handler? (policy : Policy) : Treatment → Option Text
  | preview _ _ =>
    match policy.mode with
    | .inline => some swapHandler
    | .scripted => Option.none
  | placeholder => some viewHandler
  | none => Option.none

end Treatment

def handlerAttributes (handler : Option Text) : List Attribute :=
  handler.toList.map fun value => ⟨onloadAttribute, some value⟩

/-- The attributes with the first source under another name, if there is one for it. -/
def MovedTo (name : Option Text) (attributes moved : List Attribute) : Prop :=
  match name with
  | none => moved = attributes
  | some name =>
    ∃ front source rear, attributes = front ++ source :: rear ∧
      (∀ a ∈ front, a.isNamed sourceAttribute = false) ∧
      source.isNamed sourceAttribute = true ∧
      moved = front ++ { source with name := name } :: rear

/-- `form` is the tag with no change but those that its treatment is about. -/
structure Retains (policy : Policy) (assets : Assets) (treatment : Treatment)
    (tag form : StartTag) : Prop where
  name : form.name = tag.name
  selfClosing : form.selfClosing = tag.selfClosing
  attributes : ∃ moved, MovedTo treatment.sourceName? tag.attributes moved ∧
    form.attributes = moved ++ sourceAttributes (treatment.source? policy assets) ++
      handlerAttributes (treatment.handler? policy)
  /-- A handler is put in only where there is none. -/
  handler : (treatment.handler? policy).isSome = true → tag.has onloadAttribute = false
  handlers : tag.has onloadAttribute = true →
    form.named onloadAttribute = tag.named onloadAttribute
  /-- A tag that is not treated is written as it arrived. -/
  untreated : treatment = .none → form = tag

section Forms

variable (policy : Policy) (assets : Assets) {tag : StartTag}

theorem movedTo_rename (h : tag.has sourceAttribute = true) (name : Text) :
    MovedTo (some name) tag.attributes (tag.rename sourceAttribute name).attributes := by
  rw [StartTag.rename, if_pos h]
  exact Attribute.exists_rename name h

/-- What each treatment makes of a tag: the tag with its source moved, and attributes behind it. -/
theorem form_eq (treatment : Treatment) :
    let moved := (treatment.sourceName?.map (tag.rename sourceAttribute)).getD tag
    let form := treatment.tag policy assets tag
    form.name = moved.name ∧ form.selfClosing = moved.selfClosing ∧
      form.attributes = moved.attributes ++ sourceAttributes (treatment.source? policy assets) ++
        handlerAttributes (treatment.handler? policy) := by
  cases treatment with
  | preview url p =>
    cases hmode : policy.mode <;> cases hlazy : policy.lazyFullImages <;>
      simp [Treatment.tag, Piece.previewTag, StartTag.withPreview, StartTag.push,
        StartTag.withAttribute, Treatment.sourceName?, Treatment.source?, Treatment.handler?,
        Mode.source?, sourceAttributes, handlerAttributes, hmode, hlazy]
  | placeholder =>
    simp [Treatment.tag, StartTag.asPlaceholder, StartTag.push, StartTag.withAttribute,
      Treatment.sourceName?, Treatment.source?, Treatment.handler?, sourceAttributes,
      handlerAttributes]
  | none =>
    simp [Treatment.tag, Treatment.sourceName?, Treatment.source?, Treatment.handler?,
      sourceAttributes, handlerAttributes]

/-- A treatment that puts no handler in leaves the handlers of the tag. -/
theorem named_onload_form (treatment : Treatment) (h : treatment.handler? policy = none) :
    (treatment.tag policy assets tag).named onloadAttribute = tag.named onloadAttribute := by
  have hsource : Text.sameWord sourceAttribute onloadAttribute = false := by decide
  have hfull : Text.sameWord fullAttribute onloadAttribute = false := by decide
  cases treatment with
  | preview url p =>
    cases hmode : policy.mode with
    | inline => simp [Treatment.handler?, hmode] at h
    | scripted =>
      have hmoved := @StartTag.named_rename_of_ne tag _ _ _ hsource hfull
      cases hlazy : policy.lazyFullImages with
      | true =>
        simp [Treatment.tag, Piece.previewTag, StartTag.withPreview, hmode, hlazy,
          StartTag.named_push_of_ne hsource, hmoved]
      | false => simp [Treatment.tag, Piece.previewTag, StartTag.withPreview, hmode, hlazy, hmoved]
  | placeholder => contradiction
  | none => rfl

end Forms

section Treat

variable {policy : Policy} {source : Source} {asked : List Lookup} {ledger : Ledger}
  {tag : StartTag} {url : Text}

theorem not_has_onload_of_candidate (h : candidate? policy tag = some url)
    (hmode : policy.mode = .inline) : tag.has onloadAttribute = false := by
  have hdecides : policy.decidesOn tag = true := by
    rw [← isSome_candidate?, h]
    rfl
  simp only [Policy.decidesOn, hmode, Bool.and_eq_true] at hdecides
  simpa using hdecides.2

theorem source_of_treated (h : (treat policy source asked ledger tag).treatment ≠ .none) :
    tag.has sourceAttribute = true ∧
      (((treat policy source asked ledger tag).treatment.handler? policy).isSome = true →
        tag.has onloadAttribute = false) := by
  cases hc : candidate? policy tag with
  | none =>
    rw [treat_of_not_candidate hc] at h
    contradiction
  | some url =>
    refine ⟨has_source_of_candidate hc, ?_⟩
    rw [(treat_of_candidate hc).1]
    split
    · intro hhandler
      cases hmode : policy.mode with
      | inline => exact not_has_onload_of_candidate hc hmode
      | scripted => simp [Treatment.handler?, hmode] at hhandler
    · split
      · rename_i hlazy
        intro _
        simpa using (Bool.and_eq_true_iff.mp hlazy).2
      · intro hhandler
        contradiction

end Treat

theorem Retains.untreated_self (policy : Policy) (assets : Assets) (tag : StartTag) :
    Retains policy assets .none tag tag where
  name := rfl
  selfClosing := rfl
  attributes := ⟨tag.attributes, rfl, by simp [Treatment.source?, Treatment.handler?,
    sourceAttributes, handlerAttributes]⟩
  handler h := by contradiction
  handlers _ := rfl
  untreated _ := rfl

theorem Treatment.exists_sourceName {treatment : Treatment} (h : treatment ≠ .none) :
    ∃ name, treatment.sourceName? = some name := by
  cases treatment with
  | preview url p => exact ⟨_, rfl⟩
  | placeholder => exact ⟨_, rfl⟩
  | none => contradiction

theorem Moment.treat_of_treated {source : Source} {m : Moment} {tag : StartTag}
    (he : m.event = .token (.startTag tag)) (h : m.treatment source ≠ .none) :
    m.treatment source =
      (treat m.document.policy source m.asked m.document.ledger tag).treatment := by
  rw [treatment, he] at h ⊢
  cases hl : m.document.looksAt tag with
  | true => simp [Document.treatmentAt, Document.treatment, hl]
  | false => simp [Document.treatmentAt, Document.treatment, hl] at h

theorem Moment.retains (source : Source) (assets : Assets) {m : Moment} {tag : StartTag}
    (he : m.event = .token (.startTag tag)) :
    Retains m.document.policy assets (m.treatment source) tag
      ((m.treatment source).tag m.document.policy assets tag) := by
  by_cases hnone : m.treatment source = .none
  · rw [hnone]
    exact Retains.untreated_self ..
  · have htreat := m.treat_of_treated he hnone
    have hne := hnone
    rw [htreat] at hne
    obtain ⟨hsource, hhandler⟩ := source_of_treated hne
    rw [← htreat] at hhandler
    obtain ⟨name, hname⟩ := Treatment.exists_sourceName hnone
    have hform := @form_eq m.document.policy assets tag (m.treatment source)
    rw [hname] at hform
    obtain ⟨hsame, hclosing, hattributes⟩ := hform
    refine ⟨?_, ?_, ⟨_, ?_, hattributes⟩, hhandler, fun hhas => ?_, fun h => absurd h hnone⟩
    · simpa using hsame
    · simpa using hclosing
    · rw [hname]
      exact movedTo_rename hsource name
    · refine named_onload_form _ _ _ (Option.not_isSome_iff_eq_none.mp fun hsome => ?_)
      rw [hhandler hsome] at hhas
      contradiction

theorem Moment.own_next_of_inactive (source : Source) {m : Moment}
    (hi : m.document.isActive = false) :
    (m.next source).isActive = false ∧
      ((m.next source).buffer.closed ++ (m.next source).buffer.window).filter Piece.isOwn =
        (m.document.buffer.closed ++ m.document.buffer.window).filter Piece.isOwn ++
          m.unit source := by
  have hown : (m.unit source).filter Piece.isOwn = m.unit source :=
    List.filter_eq_self.mpr fun piece h => m.isOwn_of_mem_unit h
  have hnone := @Document.treatmentAt_of_inactive m.document source m.asked hi m.event
  obtain ⟨t, ht⟩ | hc := m.event.token_or_closes
  · obtain ⟨depth, mark, hadvance⟩ := @Document.advance_token_of_inactive _ source m.asked hi t
    have hunit : m.unit source = Piece.ofToken t := by
      rw [ht] at hnone
      rw [Moment.unit, ht, Document.unit_of_none hnone]
    rw [hunit] at hown ⊢
    rw [Moment.next, ht, hadvance]
    refine ⟨hi, ?_⟩
    rw [← List.append_assoc, List.filter_append, hown]
  · have hunit : m.unit source = [] := by
      rw [Moment.unit]
      cases he : m.event with
      | token t =>
        rw [he] at hc
        contradiction
      | flush | finish => rfl
    rw [Moment.next, Document.advance_closes_of_inactive hi hc, hunit, List.append_nil]
    refine ⟨hi, ?_⟩
    rw [List.append_nil]

/-- Active or not, a document writes its events one after another, each in its form. -/
theorem Document.own_run {doc : Document} (hfresh : doc.Fresh) (source : Source)
    (asked : List Lookup) (events : List Event) :
    let buffer := (doc.run source asked events).document.buffer
    (buffer.closed ++ buffer.window).filter Piece.isOwn =
      (doc.moments source asked events).flatMap (Moment.unit source) := by
  cases ha : doc.isActive with
  | true => exact (Document.arranged_course source hfresh ha asked events).2.1.own
  | false =>
    let P := fun (ms : List Moment) (d : Document) => d.isActive = false ∧
      (d.buffer.closed ++ d.buffer.window).filter Piece.isOwn = ms.flatMap (Moment.unit source)
    have hstep : ∀ ms m, P ms m.document → m.document.finished = false →
        P (ms ++ [m]) (m.next source) := by
      intro ms m ⟨hi, hown⟩ _
      obtain ⟨hinactive, hnext⟩ := m.own_next_of_inactive source hi
      refine ⟨hinactive, ?_⟩
      rw [hnext, hown, List.flatMap_append, List.flatMap_singleton]
    refine (@course_induction source P hstep asked events [] doc ⟨ha, ?_⟩).2
    rw [hfresh.buffer]
    rfl

/-- A document is written event by event. For a start tag the tag itself is written, or, if it is
treated, the tag with its first source under another name and with a source and a handler behind its
attributes, either of them if the treatment puts one in; and where there is a handler, none is put
in. -/
theorem images_retain (classify : Classifier) (settings : Settings) (url client : Text)
    (source : Source) (asked : List Lookup) (assets : Assets) (events : List Event) :
    let doc := Document.start classify settings url client
    let ms := doc.moments source asked events
    let buffer := (doc.run source asked events).document.buffer
    (buffer.closed ++ buffer.window).filter Piece.isOwn = ms.flatMap (Moment.unit source) ∧
      ∀ m ∈ ms, ∀ tag, m.event = .token (.startTag tag) →
        let form := (m.treatment source).tag doc.policy assets tag
        Piece.render doc.policy assets (m.unit source) = form.write ∧
          Retains doc.policy assets (m.treatment source) tag form := by
  intro doc ms buffer
  have hfresh : doc.Fresh := Document.fresh_start ..
  refine ⟨Document.own_run hfresh source asked events, fun m hm tag he => ?_⟩
  rw [← Document.policy_of_mem_moments hm]
  exact ⟨Moment.render_startTag assets he, Moment.retains source assets he⟩

namespace Sample

def inlineDocument : Document :=
  .start classify { settings with inlinePreviews := true } [] []

def describedText : Text :=
  ("<IMG alt pagespeed_high_res_src=\"a\" srcset=\"b\" src=\"data:image/png;base64,AA==\"" ++
    " onload=\"").toList ++ swapHandler ++ "\">".toList

end Sample

theorem sample_images_retain :
    let doc := Sample.inlineDocument
    let m : Moment := ⟨doc, [], .token (.startTag Sample.described)⟩
    let treatment := m.treatment Sample.source
    m ∈ doc.moments Sample.source [] [m.event, .finish] ∧
      Piece.render doc.policy .usual (m.unit Sample.source) = Sample.describedText ∧
      Retains doc.policy .usual treatment Sample.described
        (treatment.tag doc.policy .usual Sample.described) := by
  intro doc m treatment
  have hm : m ∈ doc.moments Sample.source [] [m.event, .finish] := by
    rw [Document.moments_cons rfl]
    exact List.mem_cons_self
  obtain ⟨-, hretains⟩ := images_retain Sample.classify
    { Sample.settings with inlinePreviews := true } [] [] Sample.source [] .usual [m.event, .finish]
  exact ⟨hm, by decide +kernel, (hretains m hm Sample.described rfl).2⟩

end ImagePreview

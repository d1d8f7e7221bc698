import ImagePreview.Preview.Catalogue
import ImagePreview.Proofs.Document.Governed
import ImagePreview.Proofs.Document.Taking
import ImagePreview.Proofs.Image.Previews
import ImagePreview.Proofs.Image.Retained
import ImagePreview.Proofs.Scripts.Arrival

/-!
The sizes of previews. Whatever a source answers, no preview gets into a document whose size is not
admitted. A catalogue answers with nothing else, so that a document that takes its answers without
looking at the sizes is the same.
-/
namespace ImagePreview

open Markup

theorem SizeLimits.admits_iff (limits : SizeLimits) (size : UInt64) :
    limits.admits size = true ↔
      limits.least ≤ size ∧ (limits.most ≠ 0 → size ≤ limits.most) := by
  simp [admits, or_iff_not_imp_left]

@[simp] theorem SizeLimits.admits_unlimited (size : UInt64) :
    SizeLimits.unlimited.admits size = true := by
  simp [admits_iff, unlimited]

theorem Policy.admits_of_outcome {policy : Policy} {answer : Answer} {preview : Preview}
    (h : policy.outcome answer = some preview) :
    policy.accepted.admits preview.byteSize = true := by
  cases answer with
  | ok found => exact (Option.filter_eq_some_iff.mp h).2
  | error e => contradiction

def Document.Sized (doc : Document) : Prop :=
  ∀ url preview, (url, some preview) ∈ doc.ledger.outcomes →
    doc.policy.accepted.admits preview.byteSize = true

theorem Document.Sized.next {source : Source} {m : Moment} (h : m.document.Sized) :
    (m.next source).Sized := by
  intro url preview hmem
  have hpolicy : (m.next source).policy = m.document.policy := (policy_advance m.event).1
  rw [hpolicy]
  obtain ⟨hsame, -⟩ | ⟨new, -, -, hnext, -⟩ := m.outcomes_cases source
  · rw [hsame] at hmem
    exact h url preview hmem
  · rw [hnext] at hmem
    obtain hmem | hmem := List.mem_append.mp hmem
    · exact h url preview hmem
    · obtain ⟨-, houtcome⟩ := Prod.mk.inj (List.mem_singleton.mp hmem)
      rw [Moment.outcomeOf] at houtcome
      split at houtcome
      · exact Policy.admits_of_outcome houtcome.symm
      · contradiction

theorem Document.admits_of_treatment {source : Source} {doc : Document} (hfresh : doc.Fresh)
    {asked : List Lookup} {events : List Event} {m : Moment}
    (hm : m ∈ doc.moments source asked events) {url : Text} {preview : Preview}
    (ht : m.treatment source = .preview url preview) :
    doc.policy.accepted.admits preview.byteSize = true := by
  have hknown := course_induction (fun ms m h _ => Known.next h) asked events
    (Known.nil source hfresh)
  have hsized : (doc.run source asked events).document.Sized := by
    refine @course_induction source (fun _ d => d.Sized) (fun _ m h _ => h.next) asked events []
      doc fun url preview hmem => ?_
    rw [hfresh.ledger] at hmem
    contradiction
  rw [List.nil_append] at hknown
  obtain ⟨outcome, houtcome, hfollows⟩ := hknown.followed m hm url (Moment.subject?_of_preview ht)
  rw [hfollows.eq_some ht] at houtcome
  obtain ⟨front, rear, hsplit, -⟩ := List.lookup_eq_some_iff.mp houtcome
  have hadmits := hsized url preview (by rw [hsplit]; simp)
  rwa [policy_run] at hadmits

/-- What is registered, and what is written into images, are previews that images show. -/
theorem Document.shown_of_shipped {doc : Document} (hfresh : doc.Fresh) (source : Source)
    (asked : List Lookup) (events : List Event) :
    let ms := doc.moments source asked events
    let last := (doc.run source asked events).document
    (∀ entry ∈ last.entries, ∃ m ∈ ms, ∃ preview,
      m.treatment source = .preview entry.url preview ∧ entry.dataUri = preview.dataUri) ∧
      ∀ tag url preview, .preview tag url preview ∈ last.buffer.closed ++ last.buffer.window →
        ∃ m ∈ ms, m.event = .token (.startTag tag) ∧ m.treatment source = .preview url preview := by
  intro ms last
  constructor
  · cases ha : doc.isActive with
    | true => exact Document.backed_course source hfresh ha asked events
    | false =>
      obtain ⟨⟨huntouched, -⟩, -⟩ := Untouched.course source hfresh ha asked events
      have hcues : cues last.buffer.closed = [] := by
        refine List.filterMap_eq_nil_iff.mpr fun piece hpiece => ?_
        obtain ⟨t, rfl⟩ := huntouched.tokens piece (List.mem_append_left _ hpiece)
        rfl
      intro entry hentry
      rw [entries, hcues, huntouched.ledger] at hentry
      contradiction
  · intro tag url preview hpiece
    have hown : Piece.preview tag url preview ∈ ms.flatMap (Moment.unit source) := by
      rw [← own_run hfresh source asked events]
      exact List.mem_filter.mpr ⟨hpiece, rfl⟩
    obtain ⟨m, hm, hunit⟩ := List.mem_flatMap.mp hown
    obtain ⟨t, heq, -⟩ | ⟨tag', url', preview', heq, he, ht⟩ | ⟨tag', heq⟩ := m.unit_cases hunit
    · contradiction
    · obtain ⟨rfl, rfl, rfl⟩ := Piece.preview.inj heq
      exact ⟨m, hm, he, ht⟩
    · contradiction

def Policy.unchecked (policy : Policy) : Policy := { policy with accepted := .unlimited }

theorem Policy.outcome_unchecked (policy : Policy) (found : Option Preview) :
    policy.unchecked.outcome (.ok found) = found := by
  cases found <;> simp [outcome, unchecked]

theorem Policy.render_unchecked (policy : Policy) (assets : Assets) (pieces : List Piece) :
    Piece.render policy.unchecked assets pieces = Piece.render policy assets pieces := by
  have hwrite : Piece.write policy.unchecked assets = Piece.write policy assets := by
    funext piece
    cases piece <;> rfl
  rw [Piece.render, Piece.render, hwrite]

namespace Catalogue

theorem admits_of_answer {catalogue : Catalogue} {lookup : Lookup} {preview : Preview}
    (h : catalogue.answer lookup = .ok (some preview)) :
    lookup.limits.admits preview.byteSize = true := by
  rw [answer] at h
  split at h
  · contradiction
  · exact (Option.filter_eq_some_iff.mp (Except.ok.inj h)).2

theorem outcome_of_answer {catalogue : Catalogue} {policy : Policy}
    (h : policy.accepted = policy.settings.limits) {url : Text} {found : Option Preview}
    (hanswer : catalogue.answer (policy.lookup url) = .ok found) :
    policy.outcome (.ok found) = found := by
  cases found with
  | none => rfl
  | some preview =>
    rw [Policy.outcome, Option.filter_eq_some_iff]
    refine ⟨rfl, ?_⟩
    rw [h]
    exact admits_of_answer hanswer

/-- So nothing is lost if its answers are not looked at. -/
theorem agrees_unchecked (catalogue : Catalogue) {policy : Policy}
    (h : policy.accepted = policy.settings.limits) :
    policy.Agrees catalogue.source policy.unchecked where
  mode := rfl
  lazyload := rfl
  lazyFullImages := rfl
  deferScripts := rfl
  allowsIndex _ := rfl
  lookup _ := rfl
  outcome asked url := by
    cases hanswer : catalogue.source asked (policy.lookup url) with
    | error e => rfl
    | ok found => rw [policy.outcome_unchecked, outcome_of_answer h hanswer]

end Catalogue

/-- What a document ships of previews is what its images show, in sizes within the limits. -/
structure ShipsWithin (limits : SizeLimits) (source : Source) (ms : List Moment)
    (doc : Document) : Prop where
  registered : ∀ entry ∈ doc.entries, ∃ m ∈ ms, ∃ preview,
    m.treatment source = .preview entry.url preview ∧ entry.dataUri = preview.dataUri
  written : ∀ tag url preview,
    .preview tag url preview ∈ doc.buffer.closed ++ doc.buffer.window →
      ∃ m ∈ ms, m.event = .token (.startTag tag) ∧ m.treatment source = .preview url preview
  sizes : ∀ m ∈ ms, ∀ url preview, m.treatment source = .preview url preview →
    limits.least ≤ preview.byteSize ∧ (limits.most ≠ 0 → preview.byteSize ≤ limits.most)

/-- What is shipped of previews has an admitted size, whatever the source answers. With a catalogue,
every size that is answered is admitted, and a document that takes the answers without a look at the
sizes does the same and has the same output. -/
theorem shipped_sizes (classify : Classifier) (settings : Settings) (url client : Text) :
    let doc := Document.start classify settings url client
    let unchecked := doc.under doc.policy.unchecked
    (∀ source asked events, ShipsWithin settings.limits source (doc.moments source asked events)
      (doc.run source asked events).document) ∧
    (∀ found, unchecked.policy.outcome (.ok found) = found) ∧
    ∀ catalogue : Catalogue,
      (∀ image found, catalogue.answer (doc.policy.lookup image) = .ok found →
        doc.policy.outcome (.ok found) = found) ∧
      (∀ assets asked events,
        let run := doc.run catalogue.source asked events
        let other := unchecked.run catalogue.source asked events
        other.output assets = run.output assets ∧ other.trace = run.trace ∧
          other.error = run.error) ∧
      ∀ assets asked windows,
        let services : Services := ⟨classify, catalogue.source, assets⟩
        unchecked.deliver services asked windows = doc.deliver services asked windows := by
  intro doc unchecked
  have hfresh : doc.Fresh := Document.fresh_start ..
  have hagrees (catalogue : Catalogue) :
      doc.policy.Agrees catalogue.source doc.policy.unchecked := catalogue.agrees_unchecked rfl
  refine ⟨fun source asked events => ?_, doc.policy.outcome_unchecked, fun catalogue =>
    ⟨fun image found hanswer => ?_, fun assets asked events => ?_, fun assets asked windows => ?_⟩⟩
  · obtain ⟨hregistered, hwritten⟩ := Document.shown_of_shipped hfresh source asked events
    refine ⟨hregistered, hwritten, fun m hm image preview ht => ?_⟩
    exact (settings.limits.admits_iff _).mp (Document.admits_of_treatment hfresh hm ht)
  · exact Catalogue.outcome_of_answer rfl hanswer
  · intro run other
    have hother : other = { run with document := run.document.under doc.policy.unchecked } :=
      Document.run_under (hagrees catalogue) asked events
    have hpolicy : run.document.policy = doc.policy := Document.policy_run events
    have houtput : Piece.render doc.policy.unchecked assets run.document.buffer.closed =
        run.output assets := by
      rw [doc.policy.render_unchecked, ← hpolicy]
      rfl
    rw [hother]
    exact ⟨houtput, rfl, rfl⟩
  · intro services
    exact @Document.deliver_under services services rfl _ doc (hagrees catalogue)
      (doc.policy.render_unchecked assets) asked windows

namespace Sample

def measured : Settings := { settings with limits := ⟨1, 1⟩ }

def stocked : Catalogue :=
  (Catalogue.insert {} "a".toList preview).insertSmall "a".toList
    (.ofBytes "image/png".toList [0, 0])

end Sample

theorem sample_shipped_sizes :
    let doc := Document.start Sample.classify Sample.measured [] []
    let source := Sample.stocked.source
    let m : Moment := ⟨doc, [], Sample.image "a".toList⟩
    let size := Sample.preview.byteSize
    m ∈ doc.moments source [] [m.event, .finish] ∧
      m.treatment source = .preview "a".toList Sample.preview ∧
      (1 ≤ size ∧ ((1 : UInt64) ≠ 0 → size ≤ 1)) ∧
      Sample.stocked.answer (doc.policy.lookup "a".toList) = .ok (some Sample.preview) ∧
      doc.policy.outcome (.ok (some Sample.preview)) = some Sample.preview := by
  intro doc source m size
  have hm : m ∈ doc.moments source [] [m.event, .finish] := by
    rw [Document.moments_cons rfl]
    exact List.mem_cons_self
  have ht : m.treatment source = .preview "a".toList Sample.preview := by decide +kernel
  have hanswer : Sample.stocked.answer (doc.policy.lookup "a".toList) = .ok (some Sample.preview) :=
    rfl
  obtain ⟨hships, -, hcatalogue⟩ := shipped_sizes Sample.classify Sample.measured [] []
  obtain ⟨htaken, -⟩ := hcatalogue Sample.stocked
  exact ⟨hm, ht, (hships source [] [m.event, .finish]).sizes m hm _ _ ht, hanswer,
    htaken _ _ hanswer⟩

end ImagePreview

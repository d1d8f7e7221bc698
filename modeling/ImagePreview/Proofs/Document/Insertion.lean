import ImagePreview.Proofs.Document.Closing

/-!
The output of a document: its events in their order, each written once and whole, with nothing but
blocks put in around them. The blocks that stand in a document once have their places.
-/
namespace ImagePreview

open Markup

variable {source : Source}

/-- A document with the moments that wrote it: those of its closed windows, with blocks put in
between them, and those of the open one. -/
def Arranged (source : Source) (ms : List Moment) (doc : Document) : Prop :=
  ∃ put late, ms = put.map Prod.snd ++ late ∧ doc.buffer.closed = laid source put ∧
    Opened source late doc.buffer ∧ (doc.finished = true → late = []) ∧
    ∀ x ∈ put, ∀ b ∈ x.1, b.isClosing = true

namespace Document

variable {doc : Document}

theorem isClosing_trailer {finishing : Bool} {b : Block} (h : b ∈ doc.trailer finishing) :
    b.isClosing = true := by
  rw [trailer] at h
  split at h
  · rw [List.mem_singleton.mp h]
    rfl
  · contradiction

theorem isClosing_scripts {finishing : Bool} {b : Block} (h : b ∈ doc.scripts finishing) :
    b.isClosing = true := by
  rw [scripts, List.mem_append, List.mem_append] at h
  rcases h with (h | h) | h <;> split at h
  all_goals
    first
      | contradiction
      | rw [List.mem_singleton.mp h]; rfl

end Document

theorem Arranged.next {ms : List Moment} {m : Moment} (h : Arranged source ms m.document)
    (ha : m.document.isActive = true) (hf : m.document.finished = false) :
    Arranged source (ms ++ [m]) (m.next source) := by
  obtain ⟨put, late, rfl, hclosed, hopened, -, hnew⟩ := h
  obtain ⟨t, ht⟩ | hc := m.event.token_or_closes
  · refine ⟨put, late ++ [m], by simp, ?_, hopened.push ha ht, ?_, hnew⟩
    · rw [Moment.next_of_token ha ht]
      exact hclosed
    · rw [Moment.finished_next ha, hf, ht]
      simp
  · obtain ⟨more, hmore, hlaid, hclosing⟩ := hopened.exists_closing hc
      (m.document.trailer (m.event = .finish)) (m.document.scripts (m.event = .finish))
    refine ⟨put ++ more, [], by simp [hmore], ?_, Opened.close ha hc, fun _ => rfl, ?_⟩
    · rw [Moment.pieces, Document.pieces_closes hc] at hlaid
      rw [Moment.next_of_closes ha hc, laid_append, ← hclosed, ← hlaid]
      simp [Buffer.close]
    · intro x hx b hmem
      obtain hx | hx := List.mem_append.mp hx
      · exact hnew x hx b hmem
      · obtain hmem | hmem := List.mem_append.mp (hclosing.mem_blocks x hx b hmem)
        · exact Document.isClosing_trailer hmem
        · exact Document.isClosing_scripts hmem

def Piece.isOwn : Piece → Bool
  | block _ => false
  | _ => true

theorem Moment.isOwn_of_mem_unit {m : Moment} {piece : Piece} (h : piece ∈ m.unit source) :
    piece.isOwn = true := by
  obtain ⟨t, rfl, -⟩ | ⟨tag, url, preview, rfl, -⟩ | ⟨tag, rfl⟩ := m.unit_cases h <;> rfl

theorem filter_isOwn_blocks (blocks : List Block) :
    (blocks.map Piece.block).filter Piece.isOwn = [] := by
  simp [List.filter_eq_nil_iff, Piece.isOwn]

theorem filter_isOwn_pieces (m : Moment) :
    (m.pieces source).filter Piece.isOwn = m.unit source := by
  have hunit : (m.unit source).filter Piece.isOwn = m.unit source :=
    List.filter_eq_self.mpr fun piece h => m.isOwn_of_mem_unit h
  rw [Moment.unit] at hunit
  rw [Moment.pieces, Document.pieces, List.filter_append, List.filter_append,
    filter_isOwn_blocks, filter_isOwn_blocks, hunit, List.nil_append, List.append_nil]
  rfl

theorem filter_isOwn_laid (put : List (List Block × Moment)) :
    (laid source put).filter Piece.isOwn = (put.map Prod.snd).flatMap (Moment.unit source) := by
  induction put with
  | nil => rfl
  | cons x put ih =>
    rw [laid_cons, List.filter_append, List.filter_append, filter_isOwn_blocks,
      filter_isOwn_pieces, ih, List.nil_append]
    rfl

theorem Arranged.own {ms : List Moment} {doc : Document} (h : Arranged source ms doc) :
    (doc.buffer.closed ++ doc.buffer.window).filter Piece.isOwn =
      ms.flatMap (Moment.unit source) := by
  obtain ⟨put, late, rfl, hclosed, hopened, -, -⟩ := h
  have hwindow : doc.buffer.window = laid source (bare late) := by
    rw [hopened.window, laid_bare]
  rw [hclosed, hwindow, ← laid_append, filter_isOwn_laid, List.map_append, map_snd_bare]

structure Recorded (source : Source) (ms : List Moment) (doc : Document) : Prop where
  fallback : doc.written.fallback = ms.any fun m => m.event.starts .body
  deferHead : doc.written.deferHead =
    (doc.policy.settings.deferScripts && ms.any fun m => m.event.starts .head)
  lazyLibrary : doc.written.lazyLibrary = ms.any fun m => m.treatment source = .placeholder

theorem Recorded.next {ms : List Moment} {m : Moment} (h : Recorded source ms m.document)
    (ha : m.document.isActive = true) : Recorded source (ms ++ [m]) (m.next source) := by
  obtain ⟨t, ht⟩ | hc := m.event.token_or_closes
  · have htreat : m.document.treatmentAt source m.asked m.event = m.treatment source := rfl
    rw [Moment.next_of_token ha ht]
    refine ⟨?_, ?_, ?_⟩
    · simp [Document.writtenAfter, h.fallback]
    · cases hd : m.document.policy.settings.deferScripts <;>
        simp [Document.writtenAfter, h.deferHead, hd]
    · simp [Document.writtenAfter, h.lazyLibrary, htreat]
  · rw [Moment.next_of_closes ha hc]
    refine ⟨?_, ?_, ?_⟩
    · simp [Document.writtenAtClose, h.fallback, Moment.starts_of_closes hc]
    · simp [Document.writtenAtClose, h.deferHead, Moment.starts_of_closes hc]
    · simp [Document.writtenAtClose, h.lazyLibrary, Moment.treatment_of_closes hc]

namespace Document

theorem arranged_course (source : Source) {doc : Document} (hfresh : doc.Fresh)
    (ha : doc.isActive = true) (asked : List Lookup) (events : List Event) :
    doc.Stays (doc.run source asked events).document ∧
      Arranged source (doc.moments source asked events) (doc.run source asked events).document ∧
      ∀ earlier m later, doc.moments source asked events = earlier ++ m :: later →
        doc.Stays m.document ∧ Recorded source earlier m.document := by
  let P := fun ms d => doc.Stays d ∧ Arranged source ms d ∧ Recorded source ms d
  have hstep : ∀ ms m, P ms m.document → m.document.finished = false →
      P (ms ++ [m]) (m.next source) := fun ms m h hf =>
    ⟨h.1.next, h.2.1.next h.1.active hf, h.2.2.next h.1.active⟩
  have hstart : P [] doc := by
    refine ⟨⟨ha, rfl, rfl⟩, ⟨[], [], rfl, ?_, ?_, fun _ => rfl, by simp⟩, ?_⟩
    · rw [hfresh.buffer]
      rfl
    · rw [hfresh.buffer]
      exact Opened.nil []
    · refine ⟨?_, ?_, ?_⟩ <;> simp [hfresh.written]
  have hend := course_induction hstep asked events hstart
  refine ⟨hend.1, hend.2.1, fun earlier m later hm => ?_⟩
  have hat := (course_at hstep asked events hstart hm).1
  exact ⟨hat.1, hat.2.2⟩

end Document

/-- The text of an event: as it arrived, or the form that an image takes by its treatment. -/
def Moment.text (source : Source) (assets : Assets) (m : Moment) : Text :=
  match m.event with
  | .token (.startTag tag) =>
    match m.treatment source with
    | .preview _ preview => (Piece.previewTag m.document.policy assets tag preview).write
    | .placeholder => (tag.asPlaceholder assets.blankImageUrl).write
    | .none => tag.write
  | .token t => t.write
  | _ => []

theorem Moment.render_unit (assets : Assets) (m : Moment) :
    Piece.render m.document.policy assets (m.unit source) = m.text source assets := by
  rw [unit, text, treatment]
  cases m.event with
  | token t =>
    cases t with
    | startTag tag =>
      simp only [Document.unit, Document.treatmentAt]
      cases m.document.treatment source m.asked tag with
      | preview url preview => simp [Treatment.unit, Piece.render, Piece.write]
      | placeholder => simp [Treatment.unit, Piece.render, Piece.write]
      | none => exact Piece.render_ofToken _ _ _
    | endTag tag => exact Piece.render_ofToken _ _ _
    | text t => exact Piece.render_ofToken _ _ _
  | flush | finish => rfl

structure Spot where
  before : List Block
  moment : Moment
  behind : List Block

namespace Spot

def write (source : Source) (assets : Assets) (s : Spot) : Text :=
  let debug := s.moment.document.policy.settings.debug
  s.before.flatMap (Block.write assets debug) ++ s.moment.text source assets ++
    s.behind.flatMap (Block.write assets debug)

def isFirst (p : Moment → Bool) (earlier : List Spot) (s : Spot) : Bool :=
  p s.moment && !earlier.any fun x => p x.moment

/-- The blocks of a spot are in their places: those that stand in the document once, and closing
blocks before the text. -/
structure InPlace (source : Source) (settings : Settings) (url : Text) (earlier : List Spot)
    (s : Spot) : Prop where
  behind : s.behind =
    (if s.isFirst (fun m => m.event.starts .body) earlier then [.fallback url] else []) ++
      (if settings.deferScripts && s.isFirst (fun m => m.event.starts .head) earlier then
        [.deferHead]
      else []) ++
      if settings.deferScripts && s.moment.event = .finish then [.deferLoader] else []
  before : ∃ closing, (∀ b ∈ closing, b.isClosing = true) ∧ s.before = closing ++
    if s.isFirst (fun m => m.treatment source = .placeholder) earlier then [.lazyLibrary] else []

end Spot

def Moment.spot (source : Source) (x : List Block × Moment) : Spot where
  before := x.1 ++ x.2.document.lead source x.2.asked x.2.event
  moment := x.2
  behind := x.2.document.follow x.2.event

theorem render_laid (policy : Policy) (assets : Assets) {put : List (List Block × Moment)}
    (h : ∀ x ∈ put, x.2.document.policy = policy) :
    Piece.render policy assets (laid source put) =
      (put.map (Moment.spot source)).flatMap (Spot.write source assets) := by
  induction put with
  | nil => rfl
  | cons x put ih =>
    have hx : x.2.document.policy = policy := h x (by simp)
    have hunit := @Moment.render_unit source assets x.2
    rw [Moment.unit, hx] at hunit
    rw [laid_cons, Piece.render_append, ih fun y hy => h y (by simp [hy]), List.map_cons,
      List.flatMap_cons]
    simp [Moment.pieces, Document.pieces, Moment.spot, Spot.write, hx, hunit]

theorem Recorded.inPlace {doc : Document} {earlier : List (List Block × Moment)}
    {x : List Block × Moment} (h : Recorded source (earlier.map Prod.snd) x.2.document)
    (hstays : doc.Stays x.2.document) (hnew : ∀ b ∈ x.1, b.isClosing = true) :
    (Moment.spot source x).InPlace source doc.policy.settings doc.url
      (earlier.map (Moment.spot source)) := by
  have hfirst : ∀ p : Moment → Bool,
      (Moment.spot source x).isFirst p (earlier.map (Moment.spot source)) =
        (p x.2 && !(earlier.map Prod.snd).any p) := by
    intro p
    simp [Spot.isFirst, Moment.spot, Function.comp_def]
  constructor
  · rw [hfirst, hfirst]
    simp only [Moment.spot, Document.follow, hstays.policy, hstays.url, h.fallback, h.deferHead]
    cases doc.policy.settings.deferScripts <;> rfl
  · refine ⟨x.1, hnew, ?_⟩
    rw [hfirst]
    have htreat : x.2.document.treatmentAt source x.2.asked x.2.event = x.2.treatment source := rfl
    simp only [Moment.spot, Document.lead, h.lazyLibrary, htreat]

/-- Output that is written spot by spot: the texts of the events of a document and of its end, in
their order, each whole and once, with blocks in their places around them. -/
structure Document.WrittenInSpots (doc : Document) (source : Source) (asked : List Lookup)
    (assets : Assets) (events : List Event) (spots : List Spot) (output : Text) : Prop where
  moments : spots.map Spot.moment = doc.moments source asked (events ++ [.finish])
  /-- Nothing comes after the first end of the document. -/
  events : spots.map (fun s => s.moment.event) = events.takeWhile (· ≠ .finish) ++ [.finish]
  output : output = spots.flatMap (Spot.write source assets)
  inPlace : ∀ earlier s later, spots = earlier ++ s :: later →
    s.InPlace source doc.policy.settings doc.url earlier

/-- An active document is written with nothing but blocks put in. -/
theorem insertion_only (classify : Classifier) (settings : Settings) (url client : Text)
    (source : Source) (asked : List Lookup) (assets : Assets) (events : List Event)
    (ha : (Document.start classify settings url client).isActive = true) :
    let doc := Document.start classify settings url client
    doc.policy.settings = settings ∧ doc.url = url ∧
      ∃ spots, doc.WrittenInSpots source asked assets events spots
        ((doc.run source asked (events ++ [.finish])).document.take assets).1 := by
  intro doc
  refine ⟨Document.settings_start .., Document.url_start .., ?_⟩
  obtain ⟨hevents, hfinished⟩ := @Document.map_event_moments source asked doc ha rfl events
  obtain ⟨hend, ⟨put, late, hmoments, hclosed, -, hlate, hnew⟩, hcourse⟩ :=
    Document.arranged_course source (Document.fresh_start ..) ha asked (events ++ [.finish])
  rw [hlate hfinished, List.append_nil] at hmoments
  have hpolicy : ∀ x ∈ put, x.2.document.policy = doc.policy := by
    intro x hx
    have hmem : x.2 ∈ doc.moments source asked (events ++ [.finish]) := by
      rw [hmoments]
      exact List.mem_map_of_mem hx
    obtain ⟨earlier, later, hsplit⟩ := List.append_of_mem hmem
    exact (hcourse earlier x.2 later hsplit).1.policy
  refine ⟨put.map (Moment.spot source), ?_, ?_, ?_, ?_⟩
  · rw [hmoments]
    simp [Moment.spot, Function.comp_def]
  · rw [← hevents, hmoments]
    simp [Moment.spot, Function.comp_def]
  · rw [Document.take, Buffer.take, hend.policy, hclosed, render_laid _ _ hpolicy]
  · intro earlier s later hs
    obtain ⟨front, rest, rfl, rfl, hrest⟩ := List.map_eq_append_iff.mp hs
    obtain ⟨x, rear, rfl, rfl, rfl⟩ := List.map_eq_cons_iff.mp hrest
    obtain ⟨hstays, hrecorded⟩ := hcourse (front.map Prod.snd) x.2 (rear.map Prod.snd)
      (by simp [hmoments])
    exact hrecorded.inPlace hstays fun b hb => hnew x (by simp) b hb

theorem sample_insertion_only :
    Sample.document.isActive = true ∧
      ∃ spots, Sample.document.WrittenInSpots Sample.source [] .usual Sample.events spots
        ((Sample.document.run Sample.source [] (Sample.events ++ [.finish])).document.take
          .usual).1 :=
  ⟨rfl, (insertion_only Sample.classify Sample.settings [] [] Sample.source [] .usual
    Sample.events rfl).2.2⟩

end ImagePreview

import ImagePreview.Proofs.Document.Outlook
import ImagePreview.Proofs.Scripts.Register

/-!
Flushes and what does not depend on them. Wherever a document is flushed, the same is looked up and
decided, every token is written in the same form, and the same previews are registered; only the
blocks that are put in where a window is closed stand in other places.
-/
namespace ImagePreview

open Markup

/-- Whether a piece is something else than a block put in where a window is closed. -/
def Piece.isLasting : Piece → Bool
  | block b => !b.isClosing
  | _ => true

section Lasting

variable {source : Source}

theorem filter_unit (m : Moment) : (m.unit source).filter Piece.isLasting = m.unit source := by
  refine List.filter_eq_self.mpr fun piece hpiece => ?_
  have hown := m.isOwn_of_mem_unit hpiece
  cases piece with
  | block b => contradiction
  | token t | preview tag url preview | placeholder tag => rfl

theorem filter_pieces (m : Moment) : (m.pieces source).filter Piece.isLasting = m.pieces source := by
  have hlead : ((m.document.lead source m.asked m.event).map Piece.block).filter Piece.isLasting =
      (m.document.lead source m.asked m.event).map .block := by
    rw [Document.lead]
    split <;> rfl
  have hfollow : ((m.document.follow m.event).map Piece.block).filter Piece.isLasting =
      (m.document.follow m.event).map .block := by
    simp only [Document.follow, List.map_append, List.filter_append]
    congr 1
    · congr 1 <;> split <;> rfl
    · split <;> rfl
  have hunit := @filter_unit source m
  rw [Moment.unit] at hunit
  rw [Moment.pieces, Document.pieces, List.filter_append, List.filter_append, hlead, hfollow, hunit]

theorem filter_laid {put : List (List Block × Moment)}
    (hnew : ∀ x ∈ put, ∀ b ∈ x.1, b.isClosing = true) :
    (laid source put).filter Piece.isLasting = piecesOf source (put.map Prod.snd) := by
  induction put with
  | nil => rfl
  | cons x put ih =>
    have hblocks : (x.1.map Piece.block).filter Piece.isLasting = [] := by
      simp only [List.filter_eq_nil_iff, List.mem_map]
      rintro _ ⟨b, hb, rfl⟩
      simp [Piece.isLasting, hnew x (by simp) b hb]
    have hrest := ih fun y hy => hnew y (by simp [hy])
    rw [laid_cons, List.filter_append, List.filter_append, hblocks, hrest, filter_pieces,
      List.map_cons, List.nil_append]
    rfl

theorem Arranged.lasting {ms : List Moment} {doc : Document} (h : Arranged source ms doc)
    (hf : doc.finished = true) : doc.buffer.closed.filter Piece.isLasting = piecesOf source ms := by
  obtain ⟨put, late, rfl, hclosed, -, hlate, hnew⟩ := h
  rw [hclosed, filter_laid hnew, hlate hf, List.append_nil]

theorem piecesOf_outlooks (ms : List Moment) :
    piecesOf source (outlooks ms) = piecesOf source ms := by
  refine flatMap_outlooks (fun m => ?_) (fun m he => ?_) ms
  · exact Document.outlook_pieces m.document source m.asked m.event
  · rw [Moment.pieces, he, Document.pieces_closes rfl]
    rfl

end Lasting

namespace Document

variable {source : Source} {doc : Document}

/-- The scripts of a finished document register the previews in its ledger, if they are to put any
in. -/
theorem entries_finished (hfresh : doc.Fresh) (ha : doc.isActive = true) (asked : List Lookup)
    (events : List Event) (hf : (doc.run source asked events).document.finished = true) :
    let last := (doc.run source asked events).document
    Cue.entries (cues last.buffer.closed) =
      match doc.policy.mode with
      | .scripted => last.ledger.previews.map Registration.of
      | .inline => [] := by
  intro last
  obtain ⟨⟨hstays, hkept⟩, -⟩ := kept_course source hfresh ha asked events
  have hpending : last.ledger.pending = [] := by
    have haccounted := hkept.accounted
    rw [hkept.ended hf] at haccounted
    exact List.eq_nil_iff_forall_not_mem.mpr fun entry hentry =>
      absurd (haccounted.pending entry hentry) List.not_mem_nil
  cases hs : doc.policy.mode with
  | scripted =>
    have hentries := (booked_course source hfresh ha hs asked events).1.enrolled.entries
    rw [entries] at hentries
    rwa [hpending, List.append_nil] at hentries
  | inline =>
    have hregistered := hkept.accounted.registered
    rw [hkept.accounted.inline (by rw [hstays.policy, hs]), eq_comm,
      List.append_eq_nil_iff] at hregistered
    exact List.map_eq_nil_iff.mp hregistered.1

end Document

/-- Two runs that differ in nothing but the blocks put in where windows are closed. -/
structure SameButClosing (a b : Document.Run) : Prop where
  lookups : a.trace.lookups = b.trace.lookups
  /-- What is logged about images. -/
  records : a.trace.log.records.filter (· ≠ .ofDelay .applied) =
    b.trace.log.records.filter (· ≠ .ofDelay .applied)
  stats : a.trace.log.stats = b.trace.log.stats
  policy : a.document.policy = b.document.policy
  /-- Tokens, each in its form, with the blocks that stand in a document once. -/
  pieces : a.document.buffer.closed.filter Piece.isLasting =
    b.document.buffer.closed.filter Piece.isLasting
  entries : Cue.entries (cues a.document.buffer.closed) =
    Cue.entries (cues b.document.buffer.closed)

namespace Document

variable {source : Source} {doc : Document}

theorem trace_outlooks (asked : List Lookup) (events : List Event) :
    let run := doc.run source asked events
    let ms := outlooks (doc.moments source asked events)
    run.trace.lookups = (ms.flatMap fun m => m.document.lookups source m.asked m.event) ∧
      run.trace.log.records.filter (· ≠ .ofDelay .applied) =
        (ms.flatMap fun m => m.document.decisions source m.asked m.event) ∧
      run.trace.log.stats = [] := by
  intro run ms
  have hview (m : Moment) : m.outlook.document.imageTrace source m.outlook.asked m.outlook.event =
      m.document.imageTrace source m.asked m.event :=
    m.document.outlook_imageTrace source m.asked m.event
  refine ⟨?_, ?_, ?_⟩
  · rw [flatMap_outlooks (fun m => congrArg Trace.lookups (hview m)) fun m he => by rw [he]; rfl]
    rw [lookups_run]
    simp only [Moment.lookups_trace]
  · rw [flatMap_outlooks (fun m => congrArg (fun t => t.log.records) (hview m))
      fun m he => by rw [he]; rfl]
    rw [trace_run (f := fun t => t.log.records.filter (· ≠ .ofDelay .applied)) rfl (by simp)]
    simp only [Moment.trace, log_advance]
  · rw [trace_run (f := fun t => t.log.stats) rfl fun a b => rfl]
    exact List.flatMap_eq_nil_iff.mpr fun m _ => (log_advance m.event).2

end Document

/-- It does not matter where a document is flushed. -/
theorem flushes_do_not_matter (classify : Classifier) (settings : Settings) (url client : Text)
    (source : Source) (asked : List Lookup) (events others : List Event)
    (ha : (Document.start classify settings url client).isActive = true)
    (h : Event.unflushed events = Event.unflushed others) :
    let doc := Document.start classify settings url client
    SameButClosing (doc.run source asked (events ++ [.finish]))
      (doc.run source asked (others ++ [.finish])) := by
  intro doc
  have hfresh : doc.Fresh := Document.fresh_start ..
  have hsame : Event.unflushed (events ++ [.finish]) = Event.unflushed (others ++ [.finish]) := by
    have hboth : Event.unflushed events ++ [.finish] = Event.unflushed others ++ [.finish] := by
      rw [h]
    simpa [Event.unflushed] using hboth
  obtain ⟨hmoments, hlast⟩ := @Document.outlook_unflushed source doc ha asked _ _ hsame
  have hend (es : List Event) :=
    (@Document.map_event_moments source asked doc ha hfresh.finished es).2
  have hpieces (es : List Event) :=
    (Document.arranged_course source hfresh ha asked (es ++ [.finish])).2.1.lasting (hend es)
  have hentries (es : List Event) :=
    Document.entries_finished hfresh ha asked (es ++ [.finish]) (hend es)
  obtain ⟨hlookups, hrecords, hstats⟩ :=
    @Document.trace_outlooks source doc asked (events ++ [.finish])
  obtain ⟨hlookups', hrecords', hstats'⟩ :=
    @Document.trace_outlooks source doc asked (others ++ [.finish])
  refine ⟨?_, ?_, ?_, congrArg (fun d => d.policy) hlast, ?_, ?_⟩
  · rw [hlookups, hlookups', hmoments]
  · rw [hrecords, hrecords', hmoments]
  · rw [hstats, hstats']
  · rw [hpieces, hpieces, ← piecesOf_outlooks, hmoments, piecesOf_outlooks]
  · have hpreviews := congrArg (fun d => d.ledger.previews) hlast
    rw [hentries, hentries]
    cases doc.policy.mode with
    | scripted => exact congrArg (List.map Registration.of) hpreviews
    | inline => rfl

namespace Sample

def flushedEarly : List Event :=
  [.token (.startTag { name := "head".toList }), .token (.startTag { name := "body".toList }),
    image "a".toList, .flush, image "b".toList, image "a".toList,
    .token (.endTag { name := "body".toList })]

def delivered (events : List Event) : Document.Run :=
  document.run (.steady generous) [] (events ++ [.finish])

end Sample

theorem sample_flushes_do_not_matter :
    Sample.document.isActive = true ∧
      Event.unflushed Sample.events = Event.unflushed Sample.flushedEarly ∧
      SameButClosing (Sample.delivered Sample.events) (Sample.delivered Sample.flushedEarly) ∧
      (Cue.batches (cues (Sample.delivered Sample.events).document.buffer.closed)).length = 1 ∧
      (Cue.batches (cues (Sample.delivered Sample.flushedEarly).document.buffer.closed)).length =
        2 :=
  ⟨rfl, rfl, flushes_do_not_matter Sample.classify Sample.settings [] [] (.steady Sample.generous) []
    Sample.events Sample.flushedEarly rfl rfl, by decide +kernel, by decide +kernel⟩

end ImagePreview

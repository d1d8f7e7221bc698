import ImagePreview.Proofs.Document.Depth
import ImagePreview.Proofs.Scripts.Order

/-!
What the log tells. Each image about which there is something to decide has one record, which says
whether the image was written with a preview and how large that is; and each script that registers
previews has one. Records come in the order of the events that they are about.
-/
namespace ImagePreview

open Markup

/-- Whether there is something to decide about an image: it carries no mark of an earlier treatment,
its source is neither blank nor holds its data, and a preview would not replace its handler. -/
def Policy.decidesOn (policy : Policy) (tag : StartTag) : Bool :=
  !tag.has fullAttribute && !tag.has lazyAttribute &&
    (tag.get? sourceAttribute).any (fun value =>
      !(Text.trim value).isEmpty && !isDataUrl (Text.Reference.decode (Text.trim value))) &&
    !(policy.mode = .inline && tag.has onloadAttribute)

namespace Treatment

def preview? : Treatment → Option Preview
  | preview _ p => some p
  | _ => Option.none

def tag (policy : Policy) (assets : Assets) (tag : StartTag) : Treatment → StartTag
  | preview _ p => Piece.previewTag policy assets tag p
  | placeholder => tag.asPlaceholder assets.blankImageUrl
  | none => tag

end Treatment

/-- What is to be logged at a moment within so many `noscript` elements: a record for an image that
is decided on there, or one for each script with registrations that the end of a window hands
over. -/
def Moment.report (policy : Policy) (source : Source) (assets : Assets) (depth : Nat)
    (m : Moment) : List Log.Record :=
  match m.event with
  | .token (.startTag tag) =>
    if depth = 0 ∧ tag.element.isImage = true ∧ policy.decidesOn tag = true then
      let treatment := m.treatment source
      [{ id := Log.imageId
         outcome := .notApplied
         resource := some ⟨false, true⟩
         image := some
           { previewInserted := (treatment.tag policy assets tag).has fullAttribute
             previewSize := (treatment.preview?.map Preview.byteSize).getD 0 } }]
    else []
  | .token _ => []
  | _ => (Cue.batches (cues (m.handed source))).map fun _ => .ofDelay .applied

def report (policy : Policy) (source : Source) (assets : Assets) :
    Nat → List Moment → List Log.Record
  | _, [] => []
  | depth, m :: ms =>
    m.report policy source assets depth ++ report policy source assets (m.event.depth depth) ms

section Treat

variable {policy : Policy} {source : Source} {asked : List Lookup} {ledger : Ledger}
  {tag : StartTag} {url : Text}

theorem isSome_candidate? (policy : Policy) (tag : StartTag) :
    (candidate? policy tag).isSome = policy.decidesOn tag := by
  rw [candidate?, Policy.decidesOn, imageUrl?]
  cases tag.has fullAttribute with
  | true => rfl
  | false =>
    cases tag.has lazyAttribute with
    | true => rfl
    | false =>
      cases tag.get? sourceAttribute with
      | none => rfl
      | some value =>
        by_cases hblank : Text.trim value = []
        · simp [hblank]
        · cases hdata : isDataUrl (Text.Reference.decode (Text.trim value)) with
          | true => simp [hblank, hdata]
          | false =>
            by_cases hmode : policy.mode = .inline
            · cases tag.has onloadAttribute <;> simp [hblank, hdata, hmode]
            · simp [hblank, hdata, hmode]

theorem log_treat_of_candidate (h : candidate? policy tag = some url) :
    (treat policy source asked ledger tag).trace.log.records =
      [.ofImage
        ((treat policy source asked ledger tag).treatment.preview?.map Preview.byteSize)] := by
  simp only [treat, h]
  cases hfound : (ledger.find policy source asked url).1 with
  | some preview => rfl
  | none =>
    dsimp only
    split <;> rfl

theorem has_full_tag (h : candidate? policy tag = some url) (assets : Assets)
    (treatment : Treatment) :
    (treatment.tag policy assets tag).has fullAttribute = treatment.preview?.isSome := by
  have hfull : tag.has fullAttribute = false := (source_of_candidate h).1
  cases treatment with
  | preview url preview => exact has_withPreview (has_source_of_candidate h) ..
  | placeholder => exact has_asPlaceholder hfull _
  | none => exact hfull

end Treat

section Moments

variable {source : Source} {assets : Assets} {m : Moment}

/-- An image has its record if there is something to decide about it. -/
theorem Moment.records_of_startTag (ha : m.document.isActive = true) {tag : StartTag}
    (he : m.event = .token (.startTag tag)) :
    (m.trace source).log.records =
      m.report m.document.policy source assets m.document.noscriptDepth := by
  rw [report, he, trace, Document.trace_advance, he]
  simp only [Document.looksAt, ha, Bool.true_and, Bool.and_eq_true, beq_iff_eq]
  by_cases hl : tag.element.isImage = true ∧ m.document.noscriptDepth = 0
  · cases hc : candidate? m.document.policy tag with
    | none =>
      have hnot : m.document.policy.decidesOn tag = false := by
        rw [← isSome_candidate?, hc]
        rfl
      rw [if_pos hl, treat_of_not_candidate hc, if_neg (by simp [hnot])]
    | some url =>
      have hdecides : m.document.policy.decidesOn tag = true := by
        rw [← isSome_candidate?, hc]
        rfl
      have ht : m.treatment source =
          (treat m.document.policy source m.asked m.document.ledger tag).treatment := by
        simp [treatment, he, Document.treatmentAt, Document.treatment, Document.looksAt, ha, hl]
      rw [if_pos hl, if_pos ⟨hl.2, hl.1, hdecides⟩, log_treat_of_candidate hc,
        has_full_tag hc, ht, Log.Record.ofImage, Option.isSome_map]
  · rw [if_neg hl, if_neg fun h => hl ⟨h.2.1, h.1⟩]

/-- The end of a window is logged once for the script with registrations in it, if there is one. -/
theorem Moment.records_of_closes {ms : List Moment}
    (h : Kept source (Windows.ofMoments source ms) m.document)
    (ha : m.document.isActive = true) (hf : m.document.finished = false)
    (hc : m.event.closes = true) (policy : Policy) (depth : Nat) :
    (m.trace source).log.records = m.report policy source assets depth := by
  have hbatches : Cue.batches (cues (m.handed source)) =
      if m.document.ledger.pending.isEmpty then [] else [m.document.ledger.pending] := by
    rw [h.cues_closed ha hf hc]
    simp [batches_scriptsFor, batches_activationFor]
  have htrace : (m.trace source).log.records =
      if m.document.isDue then [.ofDelay .applied] else [] := by
    rw [trace, Document.trace_advance, ha, Bool.true_and]
    cases he : m.event with
    | token t => rw [he] at hc; contradiction
    | flush | finish => cases m.document.isDue <;> rfl
  have hreport : m.report policy source assets depth =
      (Cue.batches (cues (m.handed source))).map fun _ => .ofDelay .applied := by
    rw [report]
    cases he : m.event with
    | token t => rw [he] at hc; contradiction
    | flush | finish => rfl
  rw [htrace, hreport, hbatches, Document.isDue]
  cases m.document.ledger.pending <;> rfl

theorem Moment.records_eq {ms : List Moment}
    (h : Kept source (Windows.ofMoments source ms) m.document)
    (ha : m.document.isActive = true) (hf : m.document.finished = false) :
    (m.trace source).log.records =
      m.report m.document.policy source assets m.document.noscriptDepth := by
  obtain ⟨t, ht⟩ | hc := m.event.token_or_closes
  · cases t with
    | startTag tag => exact records_of_startTag ha ht
    | endTag tag | text t => rw [report, ht, trace, ht]; rfl
  · exact records_of_closes h ha hf hc _ _

/-- Moments that log what is to be logged at the depth they are met at log the report of all. -/
theorem flatMap_eq_report {policy : Policy} {f : Moment → List Log.Record} {depth : Nat}
    {ms : List Moment}
    (h : ∀ earlier m later, ms = earlier ++ m :: later →
      f m = m.report policy source assets ((earlier.map Moment.event).foldl Event.depth depth)) :
    ms.flatMap f = report policy source assets depth ms := by
  induction ms generalizing depth with
  | nil => rfl
  | cons m ms ih =>
    have hlater : ms.flatMap f = report policy source assets (m.event.depth depth) ms :=
      ih fun earlier x later hsplit => by
        simpa using h (m :: earlier) x later (by rw [hsplit, List.cons_append])
    rw [List.flatMap_cons, h [] m ms rfl, hlater]
    rfl

theorem Moment.render_startTag (assets : Assets) {tag : StartTag}
    (he : m.event = .token (.startTag tag)) :
    Piece.render m.document.policy assets (m.unit source) =
      ((m.treatment source).tag m.document.policy assets tag).write := by
  rw [render_unit, text, he]
  cases m.treatment source <;> rfl

end Moments

namespace Log

theorem appliedIds_eq {log : Log} {id : Text}
    (h : ∀ r ∈ log.records, r.outcome = .applied → r.id = id) :
    log.appliedIds = if log.records.any fun r => r.outcome = .applied then [id] else [] := by
  have hfold (found : Bool) :
      log.records.foldl
          (fun ids r => if r.outcome = .applied ∧ r.id ∉ ids then ids ++ [r.id] else ids)
          (if found then [id] else []) =
        if found || log.records.any fun r => r.outcome = .applied then [id] else [] := by
    generalize log.records = records at h
    induction records generalizing found with
    | nil => simp
    | cons r records ih =>
      have hlater (found : Bool) := ih found fun x hx => h x (List.mem_cons_of_mem r hx)
      by_cases happlied : r.outcome = .applied
      · have hid := h r List.mem_cons_self happlied
        cases found <;> simpa [happlied, hid] using hlater true
      · simpa [happlied] using hlater found
  simpa [appliedIds] using hfold false

end Log

section Applied

variable {policy : Policy} {source : Source} {assets : Assets} {m : Moment}

theorem Moment.handed_of_token (ha : m.document.isActive = true) {t : Token}
    (ht : m.event = .token t) : m.handed source = [] := by
  rw [handed, closed_of_token source ha ht, List.drop_length]

theorem Moment.id_of_applied {depth : Nat} {r : Log.Record}
    (h : r ∈ m.report policy source assets depth) (happlied : r.outcome = .applied) :
    r.id = Log.delayId := by
  rw [report] at h
  split at h
  · split at h
    · rw [List.mem_singleton.mp h] at happlied
      contradiction
    · contradiction
  · contradiction
  · obtain ⟨-, -, rfl⟩ := List.mem_map.mp h
    rfl

theorem Moment.any_applied (ha : m.document.isActive = true) (depth : Nat) :
    ((m.report policy source assets depth).any fun r => r.outcome = .applied) =
      !(Cue.batches (cues (m.handed source))).isEmpty := by
  rw [report]
  split
  · rename_i tag he
    rw [handed_of_token ha he]
    split <;> rfl
  · rename_i t _ he
    rw [handed_of_token ha he]
    rfl
  · cases Cue.batches (cues (m.handed source)) <;> simp [Log.Record.ofDelay]

theorem any_flatMap_eq {β γ : Type} {p : β → Bool} {f : Moment → List β} {g : Moment → List γ}
    {ms : List Moment} (h : ∀ m ∈ ms, (f m).any p = !(g m).isEmpty) :
    (ms.flatMap f).any p = !(ms.flatMap g).isEmpty := by
  induction ms with
  | nil => rfl
  | cons m ms ih =>
    rw [List.flatMap_cons, List.flatMap_cons, List.any_append, h m List.mem_cons_self,
      ih fun x hx => h x (List.mem_cons_of_mem m hx)]
    cases g m <;> simp

end Applied

namespace Document

variable {source : Source} {doc : Document}

/-- The output that is final is what the moments have handed over. -/
theorem closed_eq_handed (hfresh : doc.Fresh) (ha : doc.isActive = true) (asked : List Lookup)
    (events : List Event) :
    (doc.run source asked events).document.buffer.closed =
      (doc.moments source asked events).flatMap (Moment.handed source) := by
  let P := fun (ms : List Moment) (d : Document) =>
    doc.Stays d ∧ d.buffer.closed = ms.flatMap (Moment.handed source)
  have hstep : ∀ ms m, P ms m.document → m.document.finished = false →
      P (ms ++ [m]) (m.next source) := by
    intro ms m h _
    refine ⟨h.1.next, ?_⟩
    have hhanded : (m.next source).buffer.closed =
        m.document.buffer.closed ++ m.handed source := by
      obtain ⟨t, ht⟩ | hc := m.event.token_or_closes
      · rw [Moment.closed_of_token source h.1.active ht, Moment.handed_of_token h.1.active ht,
          List.append_nil]
      · exact Moment.closed_of_closes source h.1.active hc
    rw [hhanded, h.2, List.flatMap_append]
    simp
  have hstart : P [] doc := ⟨⟨ha, rfl, rfl⟩, by rw [hfresh.buffer]; rfl⟩
  exact (course_induction hstep asked events hstart).2

/-- Every moment logs what is to be logged at the depth that the events before it lead to. -/
theorem reported_course (source : Source) (assets : Assets) (hfresh : doc.Fresh)
    (ha : doc.isActive = true) (asked : List Lookup) (events : List Event)
    {earlier later : List Moment} {m : Moment}
    (hm : doc.moments source asked events = earlier ++ m :: later) :
    doc.Stays m.document ∧ (m.trace source).log.records =
      m.report doc.policy source assets ((earlier.map Moment.event).foldl Event.depth 0) := by
  obtain ⟨⟨hstays, hkept⟩, hf⟩ := (kept_course source hfresh ha asked events).2 earlier m later hm
  refine ⟨hstays, ?_⟩
  rw [Moment.records_eq hkept hstays.active hf, hstays.policy,
    depth_course source hfresh ha asked events hm]

theorem records_run (events : List Event) (asked : List Lookup) :
    (doc.run source asked events).trace.log.records =
      (doc.moments source asked events).flatMap fun m => (m.trace source).log.records :=
  trace_run (f := fun trace => trace.log.records) rfl Trace.records_append events

/-- Scripts are logged as applied if there is one with registrations in the output. -/
theorem appliedIds_run (hfresh : doc.Fresh) (ha : doc.isActive = true) (asked : List Lookup)
    (events : List Event) :
    (doc.run source asked events).trace.log.appliedIds =
      if (Cue.batches (cues (doc.run source asked events).document.buffer.closed)).isEmpty then []
      else [Log.delayId] := by
  -- the assets have no part in whether anything is applied
  have hmoment : ∀ m ∈ doc.moments source asked events, doc.Stays m.document ∧ ∃ depth,
      (m.trace source).log.records = m.report doc.policy source .usual depth := by
    intro m hm
    obtain ⟨earlier, later, hsplit⟩ := List.append_of_mem hm
    obtain ⟨hstays, hreport⟩ := reported_course source .usual hfresh ha asked events hsplit
    exact ⟨hstays, _, hreport⟩
  have hid : ∀ r ∈ (doc.run source asked events).trace.log.records, r.outcome = .applied →
      r.id = Log.delayId := by
    intro r hr happlied
    rw [records_run] at hr
    obtain ⟨m, hm, hr⟩ := List.mem_flatMap.mp hr
    obtain ⟨-, depth, hreport⟩ := hmoment m hm
    rw [hreport] at hr
    exact Moment.id_of_applied hr happlied
  have hany : ((doc.moments source asked events).flatMap fun m => (m.trace source).log.records).any
        (fun r => r.outcome = .applied) =
      !((doc.moments source asked events).flatMap fun m =>
        Cue.batches (cues (m.handed source))).isEmpty := by
    refine any_flatMap_eq fun m hm => ?_
    obtain ⟨hstays, depth, hreport⟩ := hmoment m hm
    rw [hreport]
    exact Moment.any_applied hstays.active depth
  have hbatches : ((doc.moments source asked events).flatMap fun m =>
        Cue.batches (cues (m.handed source))) =
      Cue.batches (cues (doc.run source asked events).document.buffer.closed) := by
    rw [closed_eq_handed hfresh ha, cues, List.filterMap_flatMap, Cue.batches,
      List.filterMap_flatMap]
    rfl
  rw [Log.appliedIds_eq hid, records_run, hany, hbatches]
  cases Cue.batches (cues (doc.run source asked events).document.buffer.closed) <;> rfl

end Document

/-- The log of an active document is the report of its moments, which have written its output: their
images in the form that the report speaks of, and the scripts that it counts. So the scripts for
previews are logged as applied if there are any. -/
theorem log_is_report (classify : Classifier) (settings : Settings) (url client : Text)
    (source : Source) (asked : List Lookup) (assets : Assets) (events : List Event)
    (ha : (Document.start classify settings url client).isActive = true) :
    let doc := Document.start classify settings url client
    let run := doc.run source asked events
    let buffer := run.document.buffer
    let ms := doc.moments source asked events
    run.trace.log.records = report doc.policy source assets 0 ms ∧
      (run.document.take assets).1 = Piece.render doc.policy assets buffer.closed ∧
      buffer.closed = ms.flatMap (Moment.handed source) ∧
      (buffer.closed ++ buffer.window).filter Piece.isOwn = ms.flatMap (Moment.unit source) ∧
      (∀ m ∈ ms, ∀ tag : StartTag, m.event = .token (.startTag tag) →
        Piece.render doc.policy assets (m.unit source) =
          ((m.treatment source).tag doc.policy assets tag).write) ∧
      (doc.startTrace ++ run.trace).log.appliedIds =
        if (Cue.batches (cues buffer.closed)).isEmpty then [] else [Log.delayId] := by
  intro doc run buffer ms
  have hfresh : doc.Fresh := Document.fresh_start ..
  obtain ⟨hstays, harranged, hat⟩ :=
    Document.arranged_course source hfresh ha asked events
  have hreport : run.trace.log.records = report doc.policy source assets 0 ms := by
    rw [Document.records_run]
    exact flatMap_eq_report fun earlier m later hsplit =>
      (Document.reported_course source assets hfresh ha asked events hsplit).2
  have hstart : (doc.startTrace ++ run.trace).log.appliedIds = run.trace.log.appliedIds := rfl
  refine ⟨hreport, ?_, Document.closed_eq_handed hfresh ha asked events, harranged.own,
    fun m hm tag he => ?_, hstart.trans (Document.appliedIds_run hfresh ha asked events)⟩
  · rw [Document.take, Buffer.take, hstays.policy]
  · obtain ⟨earlier, later, hsplit⟩ := List.append_of_mem hm
    have hrender := @Moment.render_startTag source m assets tag he
    rwa [(hat earlier m later hsplit).1.policy] at hrender

theorem sample_log_is_report :
    let run := Sample.document.run Sample.source [] (Sample.events ++ [.finish])
    let ms := Sample.document.moments Sample.source [] (Sample.events ++ [.finish])
    Sample.document.isActive = true ∧
      report Sample.document.policy Sample.source .usual 0 ms =
        [.ofImage (some 1), .ofImage none, .ofDelay .applied, .ofImage (some 1)] ∧
      (Sample.document.startTrace ++ run.trace).log.appliedIds = [Log.delayId] := by
  intro run ms
  obtain ⟨hrecords, -, -, -, -, happlied⟩ := log_is_report Sample.classify Sample.settings [] []
    Sample.source [] .usual (Sample.events ++ [.finish]) rfl
  exact ⟨rfl, hrecords.symm.trans (by decide +kernel), happlied.trans (by decide +kernel)⟩

end ImagePreview

import ImagePreview.Proofs.Document.Insertion
import ImagePreview.Proofs.Image.Lookups

/-!
What a document goes by. Its decisions, and what it writes for each event, do not depend on the
output so far nor on what is due at the end of the open window. The rest of a document is not changed
by a flush, so runs that differ in their flushes only take the same course apart from them.
-/
namespace ImagePreview

open Markup

section

variable {policy : Policy} {source : Source} {asked : List Lookup} {ledger : Ledger} {url : Text}

namespace Ledger

@[simp] theorem settle_settle : ledger.settle.settle = ledger.settle := rfl

theorem settle_enter (outcome : Option Preview) :
    ledger.settle.enter url outcome = (ledger.enter url outcome).settle := by
  have hsame : ledger.settle.outcome? url = ledger.outcome? url := rfl
  rw [enter, enter, hsame]
  split <;> rfl

theorem settle_find :
    ledger.settle.find policy source asked url =
      ((ledger.find policy source asked url).1, (ledger.find policy source asked url).2.1.settle,
        (ledger.find policy source asked url).2.2) := by
  have hsame : ledger.settle.outcome? url = ledger.outcome? url := rfl
  have hcount : ledger.settle.previewCount = ledger.previewCount := rfl
  rw [find, find, hsame, hcount]
  split
  · rfl
  · split <;> simp only [settle_enter]

theorem settle_register (preview : Preview) :
    (ledger.settle.register url preview).settle = (ledger.register url preview).settle := by
  rw [register, register]
  cases hknown : ledger.isRegistered url <;> simp_all [isRegistered, settle]

end Ledger

/-- Nothing that is pending bears on how an image is treated. -/
theorem treat_settle (tag : StartTag) :
    treat policy source asked ledger.settle tag =
      { treat policy source asked ledger tag with
        ledger := (treat policy source asked ledger tag).ledger.settle } := by
  rw [treat, treat]
  cases candidate? policy tag with
  | none => rfl
  | some url =>
    simp only [Ledger.settle_find]
    cases (ledger.find policy source asked url).1 with
    | some preview => rfl
    | none =>
      dsimp only
      split <;> rfl

theorem log_treat (tag : StartTag) :
    (treat policy source asked ledger tag).trace.log = {} ∨
      ∃ size, (treat policy source asked ledger tag).trace.log =
        { records := [.ofImage size] } := by
  rw [treat]
  cases candidate? policy tag with
  | none => exact Or.inl rfl
  | some url =>
    refine Or.inr ⟨(ledger.find policy source asked url).1.map Preview.byteSize, ?_⟩
    cases h : (ledger.find policy source asked url).1 with
    | some preview => simp [h]
    | none =>
      simp only [h]
      split <;> rfl

end

namespace Document

/-- What a document goes by, without its output and without what is due at the end of the open
window. -/
def outlook (doc : Document) : Document :=
  { doc with
    ledger := doc.ledger.settle
    written :=
      { doc.written with previewLibrary := false, registrations := false, activation := false }
    buffer := {} }

/-- The decisions about images that are logged at an event. -/
def decisions (doc : Document) (source : Source) (asked : List Lookup) (event : Event) :
    List Log.Record :=
  (doc.imageTrace source asked event).log.records

variable (doc : Document) (source : Source) (asked : List Lookup) (event : Event)

theorem outlook_treat (tag : StartTag) :
    treat doc.outlook.policy source asked doc.outlook.ledger tag =
      { treat doc.policy source asked doc.ledger tag with
        ledger := (treat doc.policy source asked doc.ledger tag).ledger.settle } :=
  treat_settle tag

theorem outlook_looksAt (tag : StartTag) : doc.outlook.looksAt tag = doc.looksAt tag := rfl

theorem outlook_treatment (tag : StartTag) :
    doc.outlook.treatment source asked tag = doc.treatment source asked tag := by
  rw [treatment, treatment, outlook_looksAt, outlook_treat]

theorem outlook_treatmentAt :
    doc.outlook.treatmentAt source asked event = doc.treatmentAt source asked event := by
  cases event with
  | token t =>
    cases t with
    | startTag tag => exact doc.outlook_treatment source asked tag
    | endTag tag => rfl
    | text t => rfl
  | flush | finish => rfl

theorem outlook_unit : doc.outlook.unit source asked event = doc.unit source asked event := by
  cases event with
  | token t =>
    cases t with
    | startTag tag => rw [unit, unit, outlook_treatment]
    | endTag tag => rfl
    | text t => rfl
  | flush | finish => rfl

theorem outlook_pieces : doc.outlook.pieces source asked event = doc.pieces source asked event := by
  have hlead : doc.outlook.lead source asked event = doc.lead source asked event := by
    rw [lead, lead, outlook_treatmentAt]
    rfl
  have hfollow : doc.outlook.follow event = doc.follow event := rfl
  rw [pieces, pieces, outlook_unit, hlead, hfollow]

/-- What is looked up and what is decided is told by the outlook. -/
theorem outlook_imageTrace :
    doc.outlook.imageTrace source asked event = doc.imageTrace source asked event := by
  cases event with
  | token t =>
    cases t with
    | startTag tag => rw [imageTrace, imageTrace, outlook_looksAt, outlook_treat]
    | endTag tag => rfl
    | text t => rfl
  | flush | finish => rfl

theorem outlook_ledgerAfter :
    (doc.outlook.ledgerAfter source asked event).settle =
      (doc.ledgerAfter source asked event).settle := by
  cases event with
  | token t =>
    cases t with
    | startTag tag =>
      rw [ledgerAfter, ledgerAfter, outlook_looksAt, outlook_treat]
      have hpolicy : doc.outlook.policy = doc.policy := rfl
      cases doc.looksAt tag with
      | true =>
        cases ht : (treat doc.policy source asked doc.ledger tag).treatment with
        | preview url preview =>
          simp only [if_true, hpolicy, ht]
          split
          · exact Ledger.settle_register preview
          · rfl
        | placeholder | none => simp [ht]
      | false => rfl
    | endTag tag => rfl
    | text t => rfl
  | flush | finish => rfl

variable {doc source asked}

theorem outlook_advance_token (ha : doc.isActive = true) (t : Token) :
    (doc.advance source asked (.token t)).1.outlook =
      { doc.outlook with
        ledger := (doc.ledgerAfter source asked (.token t)).settle
        written :=
          { fallback := doc.written.fallback || Event.starts .body (.token t)
            deferHead := doc.written.deferHead ||
              (Event.starts .head (.token t) && doc.policy.settings.deferScripts)
            lazyLibrary := doc.written.lazyLibrary ||
              decide (doc.treatmentAt source asked (.token t) = .placeholder) }
        noscriptDepth := doc.depthAfter t } := by
  rw [advance_token ha]
  rfl

theorem outlook_advance (ha : doc.isActive = true) (event : Event) :
    (doc.outlook.advance source asked event).1.outlook =
      (doc.advance source asked event).1.outlook := by
  have hactive : doc.outlook.isActive = true := ha
  obtain ⟨t, rfl⟩ | hc := event.token_or_closes
  · have hdepth : doc.outlook.depthAfter t = doc.depthAfter t := by cases t <;> rfl
    rw [outlook_advance_token ha, outlook_advance_token hactive, outlook_ledgerAfter,
      outlook_treatmentAt, hdepth]
    rfl
  · rw [advance_closes ha hc, advance_closes hactive hc]
    rfl

theorem outlook_flush (ha : doc.isActive = true) :
    (doc.advance source asked .flush).1.outlook = doc.outlook := by
  rw [advance_closes ha rfl]
  simp [outlook, writtenAtClose]

/-- What is logged besides decisions about images is that scripts have been written. -/
theorem log_advance (event : Event) :
    (doc.advance source asked event).2.log.records.filter (· ≠ .ofDelay .applied) =
        doc.decisions source asked event ∧
      (doc.advance source asked event).2.log.stats = [] := by
  rw [trace_advance]
  cases event with
  | token t =>
    cases t with
    | startTag tag =>
      cases h : doc.looksAt tag with
      | true =>
        obtain hnone | ⟨size, hone⟩ := @log_treat doc.policy source asked doc.ledger tag
        · simp [decisions, imageTrace, h, hnone]
        · have himage : Log.Record.ofImage size ≠ .ofDelay .applied := by
            simp [Log.Record.ofImage, Log.Record.ofDelay]
          simp [decisions, imageTrace, h, hone, himage]
      | false => simp [decisions, imageTrace, h]
    | endTag tag => exact ⟨rfl, rfl⟩
    | text t => exact ⟨rfl, rfl⟩
  | flush | finish =>
    cases doc.isActive && doc.isDue <;> simp [decisions, imageTrace, Trace.ofRecord]

end Document

def Event.unflushed (events : List Event) : List Event := events.filter (· ≠ .flush)

def Moment.outlook (m : Moment) : Moment := ⟨m.document.outlook, m.asked, m.event⟩

def outlooks (ms : List Moment) : List Moment :=
  (ms.filter fun m => m.event ≠ .flush).map Moment.outlook

section Outlooks

variable {m : Moment}

theorem outlooks_of_flush (he : m.event = .flush) (ms : List Moment) :
    outlooks (m :: ms) = outlooks ms := by
  simp [outlooks, he]

theorem outlooks_of_not_flush (he : m.event ≠ .flush) (ms : List Moment) :
    outlooks (m :: ms) = m.outlook :: outlooks ms := by
  simp [outlooks, he]

/-- What is read off moments by their outlooks, and not off flushes, is read off the outlooks. -/
theorem flatMap_outlooks {β : Type} {f : Moment → List β} (hview : ∀ m, f m.outlook = f m)
    (hflush : ∀ m, m.event = .flush → f m = []) (ms : List Moment) :
    (outlooks ms).flatMap f = ms.flatMap f := by
  induction ms with
  | nil => rfl
  | cons m ms ih =>
    by_cases he : m.event = .flush
    · rw [outlooks_of_flush he, ih, List.flatMap_cons, hflush m he, List.nil_append]
    · rw [outlooks_of_not_flush he, List.flatMap_cons, List.flatMap_cons, ih, hview]

end Outlooks

namespace Document

variable {source : Source} {asked : List Lookup} {doc other : Document}

theorem outlook_next (h : doc.outlook = other.outlook) (ha : doc.isActive = true) (event : Event) :
    (Moment.next source ⟨doc, asked, event⟩).outlook =
        (Moment.next source ⟨other, asked, event⟩).outlook ∧
      (Moment.trace source ⟨doc, asked, event⟩).lookups =
        (Moment.trace source ⟨other, asked, event⟩).lookups := by
  have hother : other.isActive = true := by
    have hsame : doc.outlook.isActive = other.outlook.isActive := by rw [h]
    exact hsame.symm.trans ha
  constructor
  · rw [Moment.next, Moment.next, ← outlook_advance ha, ← outlook_advance hother, h]
  · have hsame := congrArg (fun d => d.lookups source asked event) h
    simp only [lookups, outlook_imageTrace] at hsame
    rw [Moment.lookups_trace, Moment.lookups_trace]
    exact hsame

/-- Without its flushes, a course goes by the same outlooks to the same end. -/
theorem outlook_run (h : doc.outlook = other.outlook) (ha : doc.isActive = true)
    (asked : List Lookup) (events : List Event) :
    outlooks (doc.moments source asked events) =
        outlooks (other.moments source asked (Event.unflushed events)) ∧
      (doc.run source asked events).document.outlook =
        (other.run source asked (Event.unflushed events)).document.outlook := by
  induction events generalizing doc other asked with
  | nil => exact ⟨rfl, h⟩
  | cons event rest ih =>
    have hfinished : doc.finished = other.finished := congrArg (fun d => d.finished) h
    cases hf : doc.finished with
    | true =>
      have hothers : other.finished = true := hfinished.symm.trans hf
      rw [moments_of_finished hf, moments_of_finished hothers, (run_of_finished hf _).1,
        (run_of_finished hothers _).1]
      exact ⟨rfl, h⟩
    | false =>
      have hothers : other.finished = false := hfinished.symm.trans hf
      have hnext : doc.Stays (Moment.next source ⟨doc, asked, event⟩) :=
        Stays.next (m := ⟨doc, asked, event⟩) ⟨ha, rfl, rfl⟩
      rw [moments_cons hf, run_cons hf]
      dsimp only
      by_cases he : event = .flush
      · -- the other document waits at a flush
        subst he
        have hsame : (Moment.next source ⟨doc, asked, .flush⟩).outlook = other.outlook :=
          (outlook_flush ha).trans h
        have hnone : (Moment.trace source ⟨doc, asked, .flush⟩).lookups = [] :=
          Moment.lookups_trace
        have hplain : Event.unflushed (.flush :: rest) = Event.unflushed rest := rfl
        rw [hplain, hnone, List.append_nil, outlooks_of_flush rfl]
        exact ih hsame hnext.active asked
      · obtain ⟨hsame, hlookups⟩ := @outlook_next source asked doc other h ha event
        have hplain : Event.unflushed (event :: rest) = event :: Event.unflushed rest := by
          simp [Event.unflushed, he]
        rw [hplain, moments_cons hothers, run_cons hothers]
        dsimp only
        rw [← hlookups, outlooks_of_not_flush he, outlooks_of_not_flush he]
        obtain ⟨hmoments, hlast⟩ := ih hsame hnext.active
          (asked ++ (Moment.trace source ⟨doc, asked, event⟩).lookups)
        refine ⟨?_, hlast⟩
        rw [hmoments, Moment.outlook, Moment.outlook, h]

theorem outlook_unflushed (ha : doc.isActive = true) (asked : List Lookup)
    {events others : List Event} (h : Event.unflushed events = Event.unflushed others) :
    outlooks (doc.moments source asked events) = outlooks (doc.moments source asked others) ∧
      (doc.run source asked events).document.outlook =
        (doc.run source asked others).document.outlook := by
  obtain ⟨hmoments, hlast⟩ := @outlook_run source doc doc rfl ha asked events
  obtain ⟨hothers, hend⟩ := @outlook_run source doc doc rfl ha asked others
  rw [hmoments, hlast, hothers, hend, h]
  exact ⟨rfl, rfl⟩

end Document
end ImagePreview

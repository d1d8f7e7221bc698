import ImagePreview.Proofs.Document.Inactive
import ImagePreview.Proofs.Image.Lookups

/-!
Runs in parts. What a document does with its events does not hang on where the run is cut, and not
on how much of the final output has been taken at the cut.
-/
namespace ImagePreview

open Markup

namespace Document

variable {source : Source} {asked : List Lookup} {doc : Document}

/-- A run ends where its first part meets an error, or else where its second part ends. -/
theorem run_append (a b : List Event) :
    doc.run source asked (a ++ b) =
      let first := doc.run source asked a
      let more := first.document.run source (asked ++ first.trace.lookups) b
      ⟨more.document, first.trace ++ more.trace, first.error.or more.error⟩ := by
  induction a generalizing doc asked with
  | nil => simp [run]
  | cons event a ih =>
    cases hf : doc.finished with
    | true =>
      -- the first part has the error, and the second one, if it is not empty, would have it again
      obtain ⟨hdoc, htrace⟩ := @run_of_finished source asked doc hf b
      simp [run, step, hf, hdoc, htrace]
    | false =>
      rw [List.cons_append, run_cons hf, run_cons hf]
      simp only [ih, Trace.lookups_append, Trace.append_assoc, List.append_assoc]

theorem advance_token_keeps (t : Token) :
    (doc.advance source asked (.token t)).1.finished = doc.finished ∧
      (doc.advance source asked (.token t)).1.buffer.closed = doc.buffer.closed := by
  cases ha : doc.isActive with
  | true =>
    rw [advance_token ha]
    exact ⟨rfl, rfl⟩
  | false =>
    obtain ⟨depth, mark, hadvance⟩ := @advance_token_of_inactive doc source asked ha t
    rw [hadvance]
    exact ⟨rfl, rfl⟩

theorem advance_closes_settles {event : Event} (hc : event.closes = true) :
    let next := (doc.advance source asked event).1
    next.finished = (doc.finished || decide (event = .finish)) ∧
      next.buffer = { closed := next.buffer.closed } := by
  cases ha : doc.isActive with
  | true =>
    rw [advance_closes ha hc]
    exact ⟨rfl, rfl⟩
  | false =>
    rw [advance_closes_of_inactive ha hc]
    exact ⟨rfl, rfl⟩

theorem finished_advance (event : Event) :
    (doc.advance source asked event).1.finished = (doc.finished || decide (event = .finish)) := by
  obtain ⟨t, rfl⟩ | hc := event.token_or_closes
  · simpa using (@advance_token_keeps source asked doc t).1
  · exact (advance_closes_settles hc).1

/-- A document is finished behind the first end, and the events behind it are errors. -/
theorem finished_run (events : List Event) :
    (doc.run source asked events).document.finished =
      (doc.finished || events.contains .finish) := by
  induction events generalizing doc asked with
  | nil => simp [run]
  | cons event rest ih =>
    cases hf : doc.finished with
    | true => rw [(run_of_finished hf _).1, hf, Bool.true_or]
    | false =>
      rw [run_cons hf]
      dsimp only
      rw [ih, Moment.next, finished_advance, hf, Bool.false_or, Bool.false_or]
      simp [List.mem_cons, Bool.decide_or, eq_comm]

theorem error_run (hf : doc.finished = false) {events : List Event} (hnot : .finish ∉ events) :
    (doc.run source asked events).error = none := by
  induction events generalizing doc asked with
  | nil => rfl
  | cons event rest ih =>
    rw [List.mem_cons, not_or] at hnot
    rw [run_cons hf]
    refine ih ?_ hnot.2
    rw [Moment.next, finished_advance, hf, Bool.false_or]
    exact decide_eq_false (Ne.symm hnot.1)

theorem run_singleton (hf : doc.finished = false) (event : Event) :
    doc.run source asked [event] =
      ⟨(doc.advance source asked event).1, (doc.advance source asked event).2, none⟩ := by
  simp [run, step, hf]

theorem closed_run_of_tokens {events : List Event} (h : ∀ event ∈ events, event.closes = false) :
    (doc.run source asked events).document.buffer.closed = doc.buffer.closed := by
  induction events generalizing doc asked with
  | nil => rfl
  | cons event rest ih =>
    cases hf : doc.finished with
    | true => rw [(run_of_finished hf _).1]
    | false =>
      obtain ⟨hevent, hrest⟩ := List.forall_mem_cons.mp h
      obtain ⟨t, rfl⟩ | hc := event.token_or_closes
      · rw [run_cons hf]
        exact (ih hrest).trans (advance_token_keeps t).2
      · rw [hc] at hevent
        contradiction

def Settled (doc : Document) : Prop :=
  doc.finished = true → doc.buffer = { closed := doc.buffer.closed }

theorem Settled.run (h : doc.Settled) (events : List Event) :
    (doc.run source asked events).document.Settled := by
  refine @course_induction source (fun _ next => next.Settled) (fun _ m _ hf => ?_) asked events
    [] doc h
  intro hend
  rw [Moment.next, finished_advance, hf, Bool.false_or, decide_eq_true_eq] at hend
  exact (advance_closes_settles (by rw [hend]; rfl)).2

theorem Settled.run_closes (h : doc.Settled) {event : Event} (hc : event.closes = true) :
    let last := (doc.run source asked [event]).document
    last.buffer = { closed := last.buffer.closed } := by
  cases hf : doc.finished with
  | true =>
    rw [(run_of_finished hf [event]).1]
    exact h hf
  | false =>
    rw [run_singleton hf]
    exact (advance_closes_settles hc).2

/-- The document with output in front of what is final. -/
def untake (doc : Document) (front : List Piece) : Document :=
  { doc with buffer := { doc.buffer with closed := front ++ doc.buffer.closed } }

theorem close_untake (front trailer scripts tail : List Piece) :
    (doc.untake front).buffer.close trailer scripts tail =
      { closed := front ++ (doc.buffer.close trailer scripts tail).closed } := by
  have hclosed : (doc.untake front).buffer.closed = front ++ doc.buffer.closed := rfl
  have hwoven : (doc.untake front).buffer.woven trailer scripts =
      doc.buffer.woven trailer scripts := rfl
  simp only [Buffer.close, hclosed, hwoven, List.append_assoc]

/-- Taking output changes nothing about what comes after it. -/
theorem advance_untake (front : List Piece) (event : Event) :
    (doc.untake front).advance source asked event =
      ((doc.advance source asked event).1.untake front, (doc.advance source asked event).2) := by
  refine Prod.ext ?_ ?_
  · cases ha : doc.isActive with
    | true =>
      have huntaken : (doc.untake front).isActive = true := ha
      obtain ⟨t, rfl⟩ | hc := event.token_or_closes
      · rw [advance_token ha, advance_token huntaken]
        rfl
      · rw [advance_closes ha hc, advance_closes huntaken hc, close_untake]
        rfl
    | false =>
      have huntaken : (doc.untake front).isActive = false := ha
      obtain ⟨t, rfl⟩ | hc := event.token_or_closes
      · cases t with
        | startTag tag =>
          rw [advance, advance, startTag, startTag, ha, huntaken]
          rfl
        | endTag tag =>
          have hend (doc : Document) := @endTag_eq doc source asked tag
          rw [advance, advance, hend, hend]
          rfl
        | text t => rfl
      · rw [advance_closes_of_inactive ha hc, advance_closes_of_inactive huntaken hc]
        simp [untake]
  · rw [trace_advance, trace_advance]
    rfl

theorem run_untake (front : List Piece) (events : List Event) :
    (doc.untake front).run source asked events =
      let run := doc.run source asked events
      { run with document := run.document.untake front } := by
  induction events generalizing doc asked with
  | nil => rfl
  | cons event rest ih =>
    cases hf : doc.finished with
    | true =>
      have huntaken : (doc.untake front).finished = true := hf
      simp only [run, step, hf, huntaken, if_true]
    | false =>
      have huntaken : (doc.untake front).finished = false := hf
      rw [run_cons hf, run_cons huntaken]
      simp only [Moment.next, Moment.trace, advance_untake, ih]

theorem untake_take (assets : Assets) :
    (doc.take assets).2.untake doc.buffer.closed = doc := by
  simp [take, Buffer.take, untake]

end Document
end ImagePreview

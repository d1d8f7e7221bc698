import ImagePreview.Document.Run

/-!
The course of a document: the events it takes, each with the document that meets it. What holds at
first and is kept by every event holds all along the course, and at its end.
-/
namespace ImagePreview

/-- An event that is taken, with the document it meets and the lookups made before it. -/
structure Moment where
  document : Document
  asked : List Lookup
  event : Event

namespace Moment

variable (source : Source) (m : Moment)

def next : Document := (m.document.advance source m.asked m.event).1

def trace : Trace := (m.document.advance source m.asked m.event).2

def handed : List Piece := (m.next source).buffer.closed.drop m.document.buffer.closed.length

end Moment

namespace Document

/-- The events that a document takes; the rest of them, if any, comes after its end. -/
def moments (source : Source) (asked : List Lookup) (doc : Document) : List Event → List Moment
  | [] => []
  | event :: rest =>
    if doc.finished then []
    else
      let m : Moment := ⟨doc, asked, event⟩
      m :: moments source (asked ++ (m.trace source).lookups) (m.next source) rest

variable {source : Source} {asked : List Lookup} {doc : Document}

theorem run_of_finished (h : doc.finished = true) (events : List Event) :
    (doc.run source asked events).document = doc ∧ (doc.run source asked events).trace = {} := by
  cases events with
  | nil => exact ⟨rfl, rfl⟩
  | cons event rest => simp [run, step, h]

theorem run_cons (h : doc.finished = false) (event : Event) (rest : List Event) :
    doc.run source asked (event :: rest) =
      let m : Moment := ⟨doc, asked, event⟩
      let more := (m.next source).run source (asked ++ (m.trace source).lookups) rest
      { more with trace := m.trace source ++ more.trace } := by
  simp [run, step, h, Moment.next, Moment.trace]

theorem moments_of_finished (h : doc.finished = true) (events : List Event) :
    doc.moments source asked events = [] := by
  cases events with
  | nil => rfl
  | cons event rest => simp [moments, h]

theorem moments_cons (h : doc.finished = false) (event : Event) (rest : List Event) :
    doc.moments source asked (event :: rest) =
      let m : Moment := ⟨doc, asked, event⟩
      m :: (m.next source).moments source (asked ++ (m.trace source).lookups) rest := by
  simp [moments, h]

/-- What one event keeps, with the course up to it in view, a whole course keeps. -/
theorem course_induction {P : List Moment → Document → Prop}
    (hstep : ∀ ms m, P ms m.document → m.document.finished = false → P (ms ++ [m]) (m.next source))
    (asked : List Lookup) (events : List Event) {ms : List Moment} {doc : Document}
    (h : P ms doc) :
    P (ms ++ doc.moments source asked events) (doc.run source asked events).document := by
  induction events generalizing asked ms doc with
  | nil => simpa [moments, run] using h
  | cons event rest ih =>
    cases hf : doc.finished with
    | true =>
      rw [moments_of_finished hf, (run_of_finished hf _).1, List.append_nil]
      exact h
    | false =>
      have hnext := ih (asked ++ (Moment.trace source ⟨doc, asked, event⟩).lookups)
        (hstep ms ⟨doc, asked, event⟩ h hf)
      rw [moments_cons hf, run_cons hf]
      simpa using hnext

/-- A moment of a course is met by what the events before it lead to. -/
theorem exists_run_of_moments {events : List Event} {earlier later : List Moment} {m : Moment}
    (hm : doc.moments source asked events = earlier ++ m :: later) :
    ∃ front rest, events = front ++ m.event :: rest ∧
      earlier = doc.moments source asked front ∧
      m.document = (doc.run source asked front).document ∧
      m.asked = asked ++ (doc.run source asked front).trace.lookups ∧
      m.document.finished = false := by
  induction events generalizing doc asked earlier with
  | nil => simp [moments] at hm
  | cons event rest ih =>
    cases hf : doc.finished with
    | true => simp [moments_of_finished hf] at hm
    | false =>
      rw [moments_cons hf] at hm
      cases earlier with
      | nil =>
        obtain ⟨rfl, -⟩ := List.cons.inj hm
        exact ⟨[], rest, rfl, rfl, rfl, (List.append_nil _).symm, hf⟩
      | cons first earlier =>
        obtain ⟨rfl, hrest⟩ := List.cons.inj hm
        obtain ⟨front, behind, rfl, rfl, hdoc, hasked, hopen⟩ := ih hrest
        refine ⟨event :: front, behind, rfl, (moments_cons hf ..).symm, ?_, ?_, hopen⟩
        · rw [run_cons hf]
          exact hdoc
        · rw [run_cons hf, hasked, List.append_assoc]
          rfl

theorem course_at {P : List Moment → Document → Prop}
    (hstep : ∀ ms m, P ms m.document → m.document.finished = false → P (ms ++ [m]) (m.next source))
    (asked : List Lookup) (events : List Event) {ms : List Moment} {doc : Document}
    (h : P ms doc) {earlier later : List Moment} {m : Moment}
    (hm : doc.moments source asked events = earlier ++ m :: later) :
    P (ms ++ earlier) m.document ∧ m.document.finished = false := by
  obtain ⟨front, -, -, rfl, hdoc, -, hopen⟩ := exists_run_of_moments hm
  rw [hdoc] at hopen ⊢
  exact ⟨course_induction hstep asked front h, hopen⟩

/-- What is read off the trace of a run comes from its moments, one after another. -/
theorem trace_run {β : Type} {f : Trace → List β} (hnil : f {} = [])
    (happend : ∀ a b, f (a ++ b) = f a ++ f b) (events : List Event) :
    f (doc.run source asked events).trace =
      (doc.moments source asked events).flatMap fun m => f (m.trace source) := by
  induction events generalizing doc asked with
  | nil => exact hnil
  | cons event rest ih =>
    cases hf : doc.finished with
    | true =>
      rw [moments_of_finished hf, (run_of_finished hf _).2]
      exact hnil
    | false =>
      rw [run_cons hf, moments_cons hf]
      simp [happend, ih]

theorem lookups_run (events : List Event) :
    (doc.run source asked events).trace.lookups =
      (doc.moments source asked events).flatMap fun m => (m.trace source).lookups :=
  trace_run rfl Trace.lookups_append events

theorem asked_moments {events : List Event} {earlier later : List Moment} {m : Moment}
    (hm : doc.moments source asked events = earlier ++ m :: later) :
    m.asked = asked ++ earlier.flatMap fun x => (x.trace source).lookups := by
  obtain ⟨front, -, -, rfl, -, hasked, -⟩ := exists_run_of_moments hm
  rw [hasked, lookups_run]

end Document

/-!
A document in two windows, for statements at an example. The image `a` has a preview and stands in
both windows; the image `b` has none.
-/
namespace Sample

open Markup

def tag (url : Text) : StartTag :=
  { name := "img".toList, attributes := [⟨"src".toList, some url⟩] }

def image (url : Text) : Event := .token (.startTag (tag url))

def preview : Preview := .ofBytes "image/png".toList [0]

def source : Source :=
  .steady fun lookup => .ok (if lookup.url = "a".toList then some preview else none)

def generous : Lookup → Answer := fun _ => .ok (some preview)

def settings : Settings := { limits := .unlimited, deferScripts := true, lazyImages := true }

def classify : Classifier := fun _ => .ok .desktop

def document : Document := .start classify settings [] []

def events : List Event :=
  [.token (.startTag { name := "head".toList }), .token (.startTag { name := "body".toList }),
    image "a".toList, image "b".toList, .flush, image "a".toList,
    .token (.endTag { name := "body".toList })]

def output : List Piece := (document.run source [] (events ++ [.finish])).document.buffer.closed

end Sample
end ImagePreview

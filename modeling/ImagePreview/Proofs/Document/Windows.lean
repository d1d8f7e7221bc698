import ImagePreview.Proofs.Document.Window
import Mathlib.Data.List.Induction

/-!
The windows of a document one after another: those that have been closed, each with the moments
that wrote it and its output, and the moments of the open one.
-/
namespace ImagePreview

open Markup

structure Window where
  moments : List Moment
  output : List Piece

structure Windows where
  closed : List Window := []
  /-- The moments of the open window. -/
  late : List Moment := []

namespace Windows

def push (source : Source) (windows : Windows) (m : Moment) : Windows :=
  if m.event.closes then
    { closed := windows.closed ++ [⟨windows.late ++ [m], m.handed source⟩] }
  else { windows with late := windows.late ++ [m] }

def ofMoments (source : Source) (ms : List Moment) : Windows := ms.foldl (push source) {}

def output (closed : List Window) : List Piece := closed.flatMap Window.output

variable {source : Source} {ms : List Moment} {m : Moment}

@[simp] theorem output_append (a b : List Window) : output (a ++ b) = output a ++ output b :=
  List.flatMap_append

@[simp] theorem output_singleton (window : Window) : output [window] = window.output := by
  simp [output]

theorem output_split (earlier : List Window) (window : Window) (later : List Window) :
    output (earlier ++ window :: later) = output earlier ++ (window.output ++ output later) := by
  simp [output]

theorem ofMoments_snoc (ms : List Moment) (m : Moment) :
    ofMoments source (ms ++ [m]) = (ofMoments source ms).push source m := by
  simp [ofMoments]

theorem ofMoments_token {t : Token} (ht : m.event = .token t) :
    ofMoments source (ms ++ [m]) =
      { ofMoments source ms with late := (ofMoments source ms).late ++ [m] } := by
  rw [ofMoments_snoc, push, ht]
  rfl

theorem ofMoments_closes (hc : m.event.closes = true) :
    ofMoments source (ms ++ [m]) =
      { closed := (ofMoments source ms).closed ++
          [⟨(ofMoments source ms).late ++ [m], m.handed source⟩] } := by
  rw [ofMoments_snoc, push, if_pos hc]

theorem flatMap_moments (source : Source) (ms : List Moment) :
    (ofMoments source ms).closed.flatMap Window.moments ++ (ofMoments source ms).late = ms := by
  induction ms using List.reverseRecOn with
  | nil => rfl
  | append_singleton ms m ih =>
    obtain ⟨t, ht⟩ | hc := m.event.token_or_closes
    · rw [ofMoments_token ht, ← List.append_assoc, ih]
    · rw [ofMoments_closes hc]
      simp [← List.append_assoc, ih]

/-- Each window was closed at one moment, with those before it up to the last window behind it. -/
theorem exists_moment {earlier later : List Window} {window : Window}
    (h : (ofMoments source ms).closed = earlier ++ window :: later) :
    ∃ a m b, ms = a ++ m :: b ∧ m.event.closes = true ∧ (ofMoments source a).closed = earlier ∧
      window = ⟨(ofMoments source a).late ++ [m], m.handed source⟩ := by
  induction ms using List.reverseRecOn generalizing later with
  | nil => simp [ofMoments] at h
  | append_singleton ms m ih =>
    obtain ⟨t, ht⟩ | hc := m.event.token_or_closes
    · rw [ofMoments_token ht] at h
      obtain ⟨a, x, b, rfl, hx⟩ := ih h
      exact ⟨a, x, b ++ [m], by simp, hx⟩
    · rw [ofMoments_closes hc] at h
      obtain rfl | ⟨front, last, rfl⟩ := List.eq_nil_or_concat later
      · obtain ⟨hearlier, hwindow⟩ := List.append_inj' h rfl
        simp only [List.cons.injEq, and_true] at hwindow
        exact ⟨ms, m, [], rfl, hc, hearlier, hwindow.symm⟩
      · rw [List.concat_eq_append, ← List.cons_append, ← List.append_assoc] at h
        obtain ⟨a, x, b, rfl, hx⟩ := ih (List.append_inj' h rfl).1
        exact ⟨a, x, b ++ [m], by simp, hx⟩

theorem closes_late (source : Source) (ms : List Moment) :
    ∀ x ∈ (ofMoments source ms).late, x.event.closes = false := by
  induction ms using List.reverseRecOn with
  | nil => simp [ofMoments]
  | append_singleton ms m ih =>
    obtain ⟨t, ht⟩ | hc := m.event.token_or_closes
    · rw [ofMoments_token ht]
      intro x hx
      rcases List.mem_append.mp hx with hx | hx
      · exact ih x hx
      · rw [List.mem_singleton.mp hx, ht]
        rfl
    · simp [ofMoments_closes hc]

theorem flush_closed (source : Source) {ms : List Moment} (h : ∀ x ∈ ms, x.event ≠ .finish) :
    ∀ x ∈ ((ofMoments source ms).closed.flatMap Window.moments).getLast?, x.event = .flush := by
  induction ms using List.reverseRecOn with
  | nil => simp [ofMoments]
  | append_singleton ms m ih =>
    obtain ⟨t, ht⟩ | hc := m.event.token_or_closes
    · rw [ofMoments_token ht]
      exact ih fun x hx => h x (List.mem_append_left _ hx)
    · rw [ofMoments_closes hc]
      have hflush := Event.eq_flush hc (h m (by simp))
      simpa [List.getLast?_append] using hflush

/-- The last window of a document has no flush. -/
theorem not_flush_last {late : List Moment} (hlate : ∀ y ∈ late, y.event.closes = false)
    (hm : m.event = .finish) : ∀ y ∈ late ++ [m], y.event ≠ .flush := by
  intro y hy he
  rcases List.mem_append.mp hy with hy | hy
  · have hcloses := hlate y hy
    rw [he] at hcloses
    contradiction
  · rw [List.mem_singleton.mp hy, hm] at he
    contradiction

end Windows

/-- A document is finished if its course has the end of the document. Nothing comes behind it. -/
theorem Document.finished_course {source : Source} {asked : List Lookup} {doc : Document}
    {events : List Event} (ha : doc.isActive = true) (hf : doc.finished = false) :
    ((doc.run source asked events).document.finished =
        (doc.moments source asked events).any fun x => x.event = .finish) ∧
      ∀ earlier m later, doc.moments source asked events = earlier ++ m :: later →
        ∀ x ∈ earlier, x.event ≠ .finish := by
  let P := fun (ms : List Moment) (d : Document) =>
    doc.Stays d ∧ d.finished = ms.any fun x => x.event = .finish
  have hstep : ∀ ms m, P ms m.document → m.document.finished = false →
      P (ms ++ [m]) (m.next source) := by
    intro ms m h _
    refine ⟨h.1.next, ?_⟩
    rw [Moment.finished_next h.1.active, h.2, List.any_append]
    simp
  have hstart : P [] doc := ⟨⟨ha, rfl, rfl⟩, hf⟩
  refine ⟨(course_induction hstep asked events hstart).2, fun earlier m later hm => ?_⟩
  obtain ⟨⟨-, hfinished⟩, hopen⟩ := course_at hstep asked events hstart hm
  rw [hopen] at hfinished
  simpa using hfinished.symm

theorem Document.exists_finish {source : Source} {asked : List Lookup} {doc : Document}
    {events : List Event} (ha : doc.isActive = true) (hf : doc.finished = false)
    (hend : (doc.run source asked events).document.finished = true) :
    ∃ front m, doc.moments source asked events = front ++ [m] ∧ m.event = .finish ∧
      (∀ x ∈ front, x.event ≠ .finish) ∧
      (doc.run source asked events).document = m.next source := by
  induction events generalizing doc asked with
  | nil =>
    rw [run, hf] at hend
    contradiction
  | cons event rest ih =>
    have hfinish := @Moment.finished_next source ⟨doc, asked, event⟩ ha
    rw [hf, Bool.false_or] at hfinish
    rw [run_cons hf] at hend
    rw [moments_cons hf, run_cons hf]
    by_cases he : event = .finish
    · rw [decide_eq_true he] at hfinish
      refine ⟨[], ⟨doc, asked, event⟩, ?_, he, by simp, (run_of_finished hfinish _).1⟩
      simp [moments_of_finished hfinish]
    · rw [decide_eq_false he] at hfinish
      have hstays : doc.Stays doc := ⟨ha, rfl, rfl⟩
      obtain ⟨front, m, hms, hm, hfront, hlast⟩ :=
        ih (Stays.next (m := ⟨doc, asked, event⟩) hstays).active hfinish hend
      refine ⟨⟨doc, asked, event⟩ :: front, m, by simp [hms], hm, fun x hx => ?_, hlast⟩
      rcases List.mem_cons.mp hx with rfl | hx
      · exact he
      · exact hfront x hx

def Document.windows (source : Source) (asked : List Lookup) (doc : Document)
    (events : List Event) : List Window :=
  (Windows.ofMoments source (doc.moments source asked events)).closed

end ImagePreview

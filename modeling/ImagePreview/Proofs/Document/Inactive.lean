import ImagePreview.Proofs.Document.Windows

/-!
Documents that are not active. Their tokens go through as they are, and nothing else is done.
-/
namespace ImagePreview

open Markup

namespace Document

variable {doc : Document} {source : Source} {asked : List Lookup}

theorem advance_token_of_inactive (hi : doc.isActive = false) (t : Token) :
    ∃ depth mark, doc.advance source asked (.token t) =
      ({ doc with
          noscriptDepth := depth
          buffer :=
            { doc.buffer with
              window := doc.buffer.window ++ Piece.ofToken t
              bodyEnd := mark } }, {}) := by
  cases t with
  | startTag tag =>
    refine ⟨doc.noscriptDepth, doc.buffer.bodyEnd, ?_⟩
    rw [advance, startTag, hi]
    rfl
  | endTag tag =>
    rw [advance, endTag]
    split
    · exact ⟨_, _, rfl⟩
    · split <;> exact ⟨_, _, rfl⟩
  | text t => exact ⟨_, _, rfl⟩

theorem advance_closes_of_inactive (hi : doc.isActive = false) {event : Event}
    (hc : event.closes = true) :
    doc.advance source asked event =
      ({ doc with
          buffer := { closed := doc.buffer.closed ++ doc.buffer.window }
          finished := doc.finished || decide (event = .finish) }, {}) := by
  cases event with
  | token t => contradiction
  | flush | finish => simp [advance, closeWindow, hi, Buffer.close]

theorem treatmentAt_of_inactive (hi : doc.isActive = false) (event : Event) :
    doc.treatmentAt source asked event = .none := by
  cases event with
  | token t => cases t <;> simp [treatmentAt, treatment, looksAt, hi]
  | flush | finish => rfl

structure Untouched (start doc : Document) : Prop where
  inactive : doc.isActive = false
  policy : doc.policy = start.policy
  ledger : doc.ledger = {}
  tokens : ∀ piece ∈ doc.buffer.closed ++ doc.buffer.window, ∃ t, piece = .token t

namespace Untouched

variable {source : Source} {start : Document} {m : Moment}

theorem fresh (hfresh : start.Fresh) (hi : start.isActive = false) : start.Untouched start := by
  refine ⟨hi, rfl, hfresh.ledger, ?_⟩
  simp [hfresh.buffer]

theorem next (h : Untouched start m.document) : Untouched start (m.next source) := by
  rw [Moment.next]
  obtain ⟨t, ht⟩ | hc := m.event.token_or_closes
  · obtain ⟨depth, mark, hadvance⟩ :=
      @advance_token_of_inactive _ source m.asked h.inactive t
    rw [ht, hadvance]
    refine ⟨h.inactive, h.policy, h.ledger, fun piece hpiece => ?_⟩
    rw [← List.append_assoc] at hpiece
    obtain hpiece | hpiece := List.mem_append.mp hpiece
    · exact h.tokens piece hpiece
    · exact ⟨t, (Piece.mem_ofToken.mp hpiece).1⟩
  · rw [advance_closes_of_inactive h.inactive hc]
    refine ⟨h.inactive, h.policy, h.ledger, fun piece hpiece => h.tokens piece ?_⟩
    simpa using hpiece

/-- An inactive document is handed out window by window, with nothing but tokens in it. -/
theorem course (source : Source) (hfresh : start.Fresh) (hi : start.isActive = false)
    (asked : List Lookup) (events : List Event) :
    let last := (start.run source asked events).document
    (start.Untouched last ∧
        last.buffer.closed = Windows.output (start.windows source asked events)) ∧
      ∀ m ∈ start.moments source asked events, start.Untouched m.document := by
  intro last
  let P := fun ms doc =>
    start.Untouched doc ∧ doc.buffer.closed = Windows.output (Windows.ofMoments source ms).closed
  have hstep : ∀ ms m, P ms m.document → m.document.finished = false →
      P (ms ++ [m]) (m.next source) := by
    intro ms m h _
    refine ⟨h.1.next, ?_⟩
    obtain ⟨t, ht⟩ | hc := m.event.token_or_closes
    · obtain ⟨depth, mark, hadvance⟩ :=
        @advance_token_of_inactive _ source m.asked h.1.inactive t
      rw [Windows.ofMoments_token ht, Moment.next, ht, hadvance]
      exact h.2
    · have hadvance := @advance_closes_of_inactive _ source m.asked h.1.inactive _ hc
      have hhanded : m.handed source = m.document.buffer.window := by
        simp [Moment.handed, Moment.next, hadvance]
      rw [Windows.ofMoments_closes hc, Windows.output_append, Windows.output_singleton, hhanded,
        ← h.2, Moment.next, hadvance]
  have hstart : P [] start := by
    refine ⟨fresh hfresh hi, ?_⟩
    rw [hfresh.buffer]
    rfl
  refine ⟨course_induction hstep asked events hstart, fun m hm => ?_⟩
  obtain ⟨earlier, later, hsplit⟩ := List.append_of_mem hm
  exact (course_at hstep asked events hstart hsplit).1.1

end Untouched

/-- Active or not, a document does not end within a window. -/
theorem moments_windows (hf : doc.finished = false) {events : List Event}
    (hend : (doc.run source asked events).document.finished = true) :
    (doc.windows source asked events).flatMap Window.moments =
      doc.moments source asked events := by
  let P := fun ms (d : Document) => d.finished = true → (Windows.ofMoments source ms).late = []
  have hstep : ∀ ms m, P ms m.document → m.document.finished = false →
      P (ms ++ [m]) (m.next source) := by
    intro ms m _ hopen hfinished
    obtain ⟨t, ht⟩ | hc := m.event.token_or_closes
    · have hnot : (m.next source).finished = m.document.finished := by
        cases ha : m.document.isActive with
        | true => rw [Moment.next_of_token ha ht]
        | false =>
          obtain ⟨depth, mark, hadvance⟩ := @advance_token_of_inactive _ source m.asked ha t
          rw [Moment.next, ht, hadvance]
      rw [hnot, hopen] at hfinished
      contradiction
    · rw [Windows.ofMoments_closes hc]
  have hstart : P [] doc := fun hfinished => by rw [hf] at hfinished; contradiction
  have hlate := course_induction hstep asked events hstart hend
  have hall := Windows.flatMap_moments source (doc.moments source asked events)
  rw [List.nil_append] at hlate
  rwa [hlate, List.append_nil] at hall

end Document
end ImagePreview

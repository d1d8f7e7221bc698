import ImagePreview.Proofs.Document.Noscript
import ImagePreview.Proofs.Document.Parts

/-!
Which images stand in `noscript`, told from the tags: an element is open behind events if it begins
among them and none of their end tags matches its start tag, with tags matched like brackets. The
depth counts the open elements, also where end tags are missing or have nothing to match; so exactly
the images outside of all elements are looked at.
-/
namespace ImagePreview

open Markup

/-- One of these events ends an element that begins right before them: those in front of its end tag
are balanced. -/
def EndsAmong (events : List Event) : Prop :=
  ∃ inner closing rest, events = inner ++ closing :: rest ∧ Balanced inner ∧
    closing.endsNoscript = true

/-- An element is open behind these events: one of them begins it, and none ends it. -/
def InNoscript (events : List Event) : Prop :=
  ∃ earlier tag rest, events = earlier ++ .token (.startTag tag) :: rest ∧
    tag.isNamed "noscript".toList = true ∧ tag.selfClosing = false ∧ ¬ EndsAmong rest

theorem Markup.StartTag.element_eq_noscript_iff {tag : StartTag} :
    tag.element = .noscript ↔ tag.isNamed "noscript".toList = true := by
  rw [element]
  constructor
  · intro h
    split at h
    · contradiction
    · split at h
      · split at h <;> contradiction
      · split at h
        · assumption
        · split at h
          · contradiction
          · split at h <;> contradiction
  · intro h
    have hother (word : Text) (hne : Text.sameWord "noscript".toList word = false) :
        tag.isNamed word = false := by
      simp only [isNamed, Text.sameWord, beq_iff_eq, beq_eq_false_iff_ne] at h hne ⊢
      rwa [h]
    rw [hother "img".toList (by decide), hother "input".toList (by decide), h]
    rfl

theorem Event.opensNoscript_iff {event : Event} :
    event.opensNoscript = true ↔ ∃ tag, event = .token (.startTag tag) ∧
      tag.isNamed "noscript".toList = true ∧ tag.selfClosing = false := by
  constructor
  · intro h
    cases event with
    | token t =>
      cases t with
      | startTag tag =>
        refine ⟨tag, rfl, ?_⟩
        simpa [opensNoscript, StartTag.element_eq_noscript_iff] using h
      | endTag tag | text t => contradiction
    | flush | finish => contradiction
  · rintro ⟨tag, rfl, hname, hself⟩
    simp [opensNoscript, StartTag.element_eq_noscript_iff.mpr hname, hself]

namespace Balanced

variable {a b : List Event}

theorem append (ha : Balanced a) (hb : Balanced b) : Balanced (a ++ b) := by
  induction ha with
  | nil => exact hb
  | other hopen hend _ ih => exact .other hopen hend ih
  | element hopen hinner hend _ _ ih =>
    rw [List.cons_append, List.append_assoc, List.cons_append]
    exact .element hopen hinner hend ih

theorem singleton {event : Event} (hopen : event.opensNoscript = false)
    (hend : event.endsNoscript = false) : Balanced [event] := .other hopen hend .nil

theorem not_endsAmong (h : Balanced a) : ¬ EndsAmong a := by
  rintro ⟨inner, closing, rest, rfl, hinner, hend⟩
  rw [← List.singleton_append, ← List.append_assoc] at h
  have hle := h.le_depth rfl 1
  rw [List.foldl_append, hinner.foldl_depth] at hle
  simp [Event.depth, Event.not_opens_of_ends hend, hend] at hle

end Balanced

/-- Where any element is open, there is an innermost one: the events behind its start tag are
balanced, and the others are still open in front of it. -/
theorem exists_innermost {events : List Event} (h : events.foldl Event.depth 0 ≠ 0) :
    ∃ earlier opening inner, events = earlier ++ opening :: inner ∧
      opening.opensNoscript = true ∧ Balanced inner ∧
      events.foldl Event.depth 0 = earlier.foldl Event.depth 0 + 1 := by
  -- an end tag goes back to the element around, which begins further up than the last event
  induction hn : events.length using Nat.strongRecOn generalizing events with
  | ind n ih =>
    obtain rfl | ⟨front, event, rfl⟩ := List.eq_nil_or_concat events
    · contradiction
    rw [List.concat_eq_append] at h hn ⊢
    have hlength : front.length < n := by simp [← hn]
    rw [List.foldl_append, List.foldl_cons, List.foldl_nil, Event.depth] at h ⊢
    cases hopen : event.opensNoscript with
    | true => exact ⟨front, event, [], rfl, hopen, .nil, by simp⟩
    | false =>
      cases hend : event.endsNoscript with
      | false =>
        simp only [hopen, hend, Bool.false_eq_true, if_false] at h ⊢
        obtain ⟨earlier, opening, inner, rfl, hopens, hinner, hdepth⟩ := ih _ hlength h rfl
        exact ⟨earlier, opening, inner ++ [event], by simp, hopens,
          hinner.append (.singleton hopen hend), hdepth⟩
      | true =>
        simp only [hopen, hend, Bool.false_eq_true, if_false, if_true] at h ⊢
        obtain ⟨around, start, inner, rfl, hstart, hinner, hdepth⟩ :=
          ih _ hlength (by omega) rfl
        rw [hdepth, Nat.add_sub_cancel] at h ⊢
        obtain ⟨earlier, opening, front, rfl, hopens, hfront, houter⟩ :=
          ih around.length (by simp at hlength; omega) h rfl
        refine ⟨earlier, opening, front ++ start :: (inner ++ [event]), by simp, hopens, ?_, houter⟩
        exact hfront.append (.element hstart hinner hend .nil)

theorem endsAmong_of_depth {events : List Event} (depth : Nat)
    (h : events.foldl Event.depth (depth + 1) ≤ depth) : EndsAmong events := by
  induction hn : events.length using Nat.strongRecOn generalizing events depth with
  | ind n ih =>
    cases events with
    | nil =>
      rw [List.foldl_nil] at h
      omega
    | cons event rest =>
      have hrest : rest.length < n := by simp [← hn]
      rw [List.foldl_cons, Event.depth] at h
      cases hopen : event.opensNoscript with
      | true =>
        -- the element that begins here ends before the one around it does
        rw [hopen, if_pos rfl] at h
        obtain ⟨inner, closing, behind, rfl, hinner, hend⟩ :=
          ih _ hrest (depth + 1) (Nat.le_succ_of_le h) rfl
        rw [List.foldl_append, hinner.foldl_depth, List.foldl_cons, Event.depth,
          Event.not_opens_of_ends hend, if_neg Bool.false_ne_true, hend, if_pos rfl,
          Nat.add_sub_cancel] at h
        obtain ⟨front, last, later, rfl, hfront, hlast⟩ :=
          ih behind.length (by simp at hrest; omega) depth h rfl
        refine ⟨event :: (inner ++ closing :: front), last, later, by simp, ?_, hlast⟩
        exact .element hopen hinner hend hfront
      | false =>
        rw [hopen, if_neg Bool.false_ne_true] at h
        cases hend : event.endsNoscript with
        | true => exact ⟨[], event, rest, rfl, .nil, hend⟩
        | false =>
          rw [hend, if_neg Bool.false_ne_true] at h
          obtain ⟨inner, closing, behind, rfl, hinner, hclosing⟩ := ih _ hrest depth h rfl
          exact ⟨event :: inner, closing, behind, rfl, .other hopen hend hinner, hclosing⟩

/-- The depth tells whether an element is open. -/
theorem inNoscript_iff (events : List Event) :
    InNoscript events ↔ events.foldl Event.depth 0 ≠ 0 := by
  constructor
  · rintro ⟨earlier, tag, rest, rfl, hname, hself, hopen⟩ hdepth
    have hopens := Event.opensNoscript_iff.mpr ⟨tag, rfl, hname, hself⟩
    refine hopen (endsAmong_of_depth (earlier.foldl Event.depth 0) ?_)
    rw [List.foldl_append, List.foldl_cons, Event.depth, if_pos hopens] at hdepth
    rw [hdepth]
    exact Nat.zero_le _
  · intro h
    obtain ⟨earlier, opening, inner, rfl, hopens, hinner, -⟩ := exists_innermost h
    obtain ⟨tag, rfl, hname, hself⟩ := Event.opensNoscript_iff.mp hopens
    exact ⟨earlier, tag, inner, rfl, hname, hself, hinner.not_endsAmong⟩

theorem Document.depth_run {source : Source} {asked : List Lookup} {doc : Document}
    (ha : doc.isActive = true) (hf : doc.finished = false) {events : List Event}
    (hnot : .finish ∉ events) :
    (doc.run source asked events).document.noscriptDepth =
      events.foldl Event.depth doc.noscriptDepth := by
  induction events generalizing doc asked with
  | nil => rfl
  | cons event rest ih =>
    rw [List.mem_cons, not_or] at hnot
    let m : Moment := ⟨doc, asked, event⟩
    have hstays : doc.Stays doc := ⟨ha, rfl, rfl⟩
    have hopen : (m.next source).finished = false := by
      rw [Moment.finished_next ha, hf, Bool.false_or]
      exact decide_eq_false (Ne.symm hnot.1)
    rw [run_cons hf, List.foldl_cons, ← Moment.depth_next (m := m) ha]
    exact ih (Stays.next hstays).active hopen hnot.2

theorem Document.plainTag_of_isImage {tag : StartTag} (h : tag.element.isImage = true)
    (doc : Document) : doc.plainTag tag = doc.pushToken (.startTag tag) := by
  rw [plainTag]
  cases he : tag.element with
  | image | imageInput | other => rfl
  | noscript | head | body => rw [he] at h; contradiction

namespace Document

variable (doc : Document) (source : Source) (asked : List Lookup) (tag : StartTag)

theorem ledger_image_of_not_shows
    (h : (treat doc.policy source asked doc.ledger tag).treatment.shows = false) :
    (doc.image source asked tag).1.ledger =
      (treat doc.policy source asked doc.ledger tag).ledger := by
  rw [image]
  cases ht : (treat doc.policy source asked doc.ledger tag).treatment with
  | preview url preview => rw [ht] at h; contradiction
  | placeholder | none => rfl

theorem ledger_image_of_preview {url : Text} {preview : Preview}
    (h : (treat doc.policy source asked doc.ledger tag).treatment = .preview url preview) :
    (doc.image source asked tag).1.ledger =
      if doc.policy.mode = .scripted then
        (treat doc.policy source asked doc.ledger tag).ledger.register url preview
      else (treat doc.policy source asked doc.ledger tag).ledger := by
  rw [image, h]

end Document

/-- An image is looked at exactly if no `noscript` element is open where it stands. Outside of all of
them it is treated by the policy and the ledger of the document: the trace and the ledger are those
of the treatment, but that a preview for a script is registered. Inside of one it is written as it
came, and nothing else is done. -/
theorem images_outside_noscript (classify : Classifier) (settings : Settings) (url client : Text)
    (source : Source) (asked : List Lookup) (front : List Event) (tag : StartTag)
    (ha : (Document.start classify settings url client).isActive = true)
    (hi : tag.element.isImage = true) :
    let run := (Document.start classify settings url client).run source asked front
    let asked := asked ++ run.trace.lookups
    let step := run.document.step source asked (.token (.startTag tag))
    (.finish ∈ front → step = .error .finished) ∧
    (.finish ∉ front →
      (run.document.looksAt tag = true ↔ ¬ InNoscript front) ∧
      (¬ InNoscript front →
        let treated := treat run.document.policy source asked run.document.ledger tag
        let next := run.document.image source asked tag
        step = .ok next ∧ next.2 = treated.trace ∧
        (treated.treatment.shows = false → next.1.ledger = treated.ledger) ∧
        ∀ url preview, treated.treatment = .preview url preview →
          next.1.ledger =
            if run.document.policy.mode = .scripted then treated.ledger.register url preview
            else treated.ledger) ∧
      (InNoscript front →
        let next := run.document.pushToken (.startTag tag)
        step = .ok (next, {}) ∧
        ∀ policy assets, Piece.render policy assets next.buffer.window =
          Piece.render policy assets run.document.buffer.window ++ tag.write)) := by
  intro run asked' step
  have hactive : run.document.isActive = true :=
    (Document.arranged_course source (Document.fresh_start ..) ha asked front).1.active
  have hfinished : run.document.finished = front.contains .finish := Document.finished_run front
  refine ⟨fun hmem => ?_, fun hnot => ?_⟩
  · have hend : run.document.finished = true := by simpa [hfinished] using hmem
    simp only [step, Document.step, hend, if_true]
  · have hopen : run.document.finished = false := by simpa [hfinished] using hnot
    have hdepth : run.document.noscriptDepth = front.foldl Event.depth 0 :=
      Document.depth_run ha rfl hnot
    have hstep : step = .ok (run.document.startTag source asked' tag) := by
      simp only [step, Document.step, hopen, Bool.false_eq_true, if_false, Document.advance]
    have hlooks : run.document.looksAt tag = true ↔ ¬ InNoscript front := by
      rw [inNoscript_iff, not_not, ← hdepth]
      simp [Document.looksAt, hactive, hi]
    refine ⟨hlooks, fun hout => ?_, fun hin => ⟨?_, fun policy assets => ?_⟩⟩
    · rw [hstep, Document.startTag_of_looksAt (hlooks.mpr hout)]
      exact ⟨rfl, rfl, Document.ledger_image_of_not_shows _ _ _ _,
        fun _ _ => Document.ledger_image_of_preview _ _ _ _⟩
    · have hnone : run.document.looksAt tag = false :=
        Bool.eq_false_iff.mpr fun hlook => hlooks.mp hlook hin
      rw [hstep, Document.startTag_of_not_looksAt hactive hnone, Document.plainTag_of_isImage hi]
    · simp [Document.pushToken, Document.push, Buffer.push, Token.write]

namespace Sample

def nested : List Event :=
  [.token noscriptEnd, .token noscript, .token (.startTag { name := "NoScript".toList }),
    .token noscriptEnd, .flush,
    .token (.startTag { name := "noscript".toList, selfClosing := true })]

end Sample

theorem sample_images_outside_noscript :
    let run := Sample.document.run Sample.source [] Sample.nested
    Sample.document.isActive = true ∧ (Sample.tag "a".toList).element.isImage = true ∧
      .finish ∉ Sample.nested ∧ InNoscript Sample.nested ∧
      run.document.step Sample.source run.trace.lookups (Sample.image "a".toList) =
        .ok (run.document.pushToken (.startTag (Sample.tag "a".toList)), {}) := by
  intro run
  have hnot : .finish ∉ Sample.nested := by decide
  have hin : InNoscript Sample.nested := (inNoscript_iff _).mpr (by decide)
  obtain ⟨-, hopen⟩ := images_outside_noscript Sample.classify Sample.settings [] []
    Sample.source [] Sample.nested (Sample.tag "a".toList) rfl rfl
  obtain ⟨-, -, hinside⟩ := hopen hnot
  exact ⟨rfl, rfl, hnot, hin, (hinside hin).1⟩

end ImagePreview

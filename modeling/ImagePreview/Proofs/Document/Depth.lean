import ImagePreview.Proofs.Document.Insertion

/-!
The depth of `noscript` along a document. It is told from the events alone; between the tags of an
element it does not come back to zero, so nothing there is treated.
-/
namespace ImagePreview

open Markup

namespace Event

def opensNoscript : Event → Bool
  | token (.startTag tag) => tag.element = .noscript && !tag.selfClosing
  | _ => false

def endsNoscript : Event → Bool
  | token (.endTag tag) => tag.isNamed "noscript".toList
  | _ => false

def depth (depth : Nat) (event : Event) : Nat :=
  if event.opensNoscript then depth + 1 else if event.endsNoscript then depth - 1 else depth

def write : Event → Text
  | token t => t.write
  | _ => []

end Event

/-- Events where each `noscript` element that begins ends, and no other one. -/
inductive Balanced : List Event → Prop
  | nil : Balanced []
  | other {event rest} : event.opensNoscript = false → event.endsNoscript = false →
      Balanced rest → Balanced (event :: rest)
  | element {opening inner closing rest} : opening.opensNoscript = true → Balanced inner →
      closing.endsNoscript = true → Balanced rest → Balanced (opening :: (inner ++ closing :: rest))

theorem Event.not_opens_of_ends {event : Event} (h : event.endsNoscript = true) :
    event.opensNoscript = false := by
  cases event with
  | token t =>
    cases t with
    | endTag tag => rfl
    | startTag tag | text t => contradiction
  | flush | finish => rfl

namespace Balanced

variable {events : List Event}

theorem foldl_depth (h : Balanced events) (depth : Nat) :
    events.foldl Event.depth depth = depth := by
  induction h generalizing depth with
  | nil => rfl
  | other hopen hend _ ih => simp [Event.depth, hopen, hend, ih]
  | element hopen _ hend _ inner rest =>
    simp [Event.depth, hopen, Event.not_opens_of_ends hend, hend, inner, rest]

/-- Between balanced events, all elements stay open that were open before. -/
theorem le_depth (h : Balanced events) {front rear : List Event} (hsplit : events = front ++ rear)
    (depth : Nat) : depth ≤ front.foldl Event.depth depth := by
  induction h generalizing front rear depth with
  | nil =>
    rw [(List.append_eq_nil_iff.mp hsplit.symm).1]
    exact Nat.le_refl depth
  | other hopen hend _ ih =>
    cases front with
    | nil => exact Nat.le_refl depth
    | cons event front =>
      obtain ⟨rfl, hrest⟩ := List.cons.inj hsplit
      simpa [Event.depth, hopen, hend] using ih hrest depth
  | @element opening inner closing rest hopen hinner hend hrest ihInner ihRest =>
    cases front with
    | nil => exact Nat.le_refl depth
    | cons event front =>
      obtain ⟨rfl, htail⟩ := List.cons.inj hsplit
      have hstep : Event.depth depth opening = depth + 1 := by simp [Event.depth, hopen]
      rw [List.foldl_cons, hstep]
      -- the front ends behind the inner events, or among them
      obtain ⟨more, rfl, hmore⟩ | ⟨more, hinner', -⟩ := List.append_eq_append_iff.mp htail
      · cases more with
        | nil =>
          rw [List.append_nil, hinner.foldl_depth]
          exact Nat.le_succ depth
        | cons event more =>
          obtain ⟨rfl, hrest'⟩ := List.cons.inj hmore
          have hend' : Event.depth (depth + 1) closing = depth := by
            simp [Event.depth, Event.not_opens_of_ends hend, hend]
          rw [List.foldl_append, hinner.foldl_depth, List.foldl_cons, hend']
          exact ihRest hrest' depth
      · exact Nat.le_trans (Nat.le_succ depth) (ihInner hinner' (depth + 1))

end Balanced

namespace Moment

variable {source : Source} {m : Moment}

theorem depth_next (ha : m.document.isActive = true) :
    (m.next source).noscriptDepth = m.event.depth m.document.noscriptDepth := by
  obtain ⟨t, ht⟩ | hc := m.event.token_or_closes
  · rw [next_of_token ha ht, ht]
    cases t with
    | startTag tag =>
      have hiff : Event.opensNoscript (.token (.startTag tag)) = true ↔
          tag.element = .noscript ∧ tag.selfClosing = false := by
        simp [Event.opensNoscript]
      simp only [Document.depthAfter, Event.depth, hiff]
      rfl
    | endTag tag => rfl
    | text t => rfl
  · rw [next_of_closes ha hc]
    cases he : m.event with
    | token t => rw [he] at hc; contradiction
    | flush | finish => rfl

theorem treatment_of_not_looksAt
    (h : ∀ tag, m.event = .token (.startTag tag) → m.document.looksAt tag = false) :
    m.treatment source = .none := by
  rw [treatment]
  cases he : m.event with
  | token t =>
    cases t with
    | startTag tag =>
      rw [Document.treatmentAt, Document.treatment, if_neg (Bool.eq_false_iff.mp (h tag he))]
    | endTag tag | text t => rfl
  | flush | finish => rfl

theorem treatment_of_depth (h : m.document.noscriptDepth ≠ 0) : m.treatment source = .none :=
  treatment_of_not_looksAt fun tag _ => by simp [Document.looksAt, h]

theorem element_of_opensNoscript {tag : StartTag}
    (h : Event.opensNoscript (.token (.startTag tag)) = true) : tag.element = .noscript := by
  simp only [Event.opensNoscript, Bool.and_eq_true, decide_eq_true_eq] at h
  exact h.1

theorem treatment_of_opensNoscript (h : m.event.opensNoscript = true) :
    m.treatment source = .none :=
  treatment_of_not_looksAt fun tag he => by
    rw [he] at h
    simp [Document.looksAt, element_of_opensNoscript h, Element.isImage]

theorem treatment_of_endsNoscript (h : m.event.endsNoscript = true) :
    m.treatment source = .none :=
  treatment_of_not_looksAt fun tag he => by
    rw [he] at h
    contradiction

theorem isBodyEnd_of_endsNoscript (h : m.event.endsNoscript = true) : m.isBodyEnd = false := by
  rw [isBodyEnd]
  cases he : m.event with
  | token t =>
    cases t with
    | endTag tag =>
      rw [he] at h
      exact Document.not_isBodyEnd_of_noscript h
    | startTag tag | text t => rfl
  | flush | finish => rfl

theorem follow_of_opensNoscript (h : m.event.opensNoscript = true) :
    m.document.follow m.event = [] := by
  cases he : m.event with
  | token t =>
    cases t with
    | startTag tag =>
      rw [he] at h
      simp [Document.follow, Event.starts, element_of_opensNoscript h]
    | endTag tag | text t => rw [he] at h; contradiction
  | flush | finish => rw [he] at h; contradiction

theorem shows_of_none (h : m.treatment source = .none) : m.shows source = false := by
  rw [shows, h]
  rfl

theorem text_of_none (assets : Assets) (h : m.treatment source = .none) :
    m.text source assets = m.event.write := by
  rw [text, h]
  cases m.event with
  | token t => cases t <;> rfl
  | flush | finish => rfl

theorem lead_of_none (h : m.treatment source = .none) :
    m.document.lead source m.asked m.event = [] := by
  have hat : m.document.treatmentAt source m.asked m.event = .none := h
  simp [Document.lead, hat]

end Moment

theorem Document.depth_course (source : Source) {doc : Document} (hfresh : doc.Fresh)
    (ha : doc.isActive = true) (asked : List Lookup) (events : List Event)
    {earlier later : List Moment} {m : Moment}
    (hm : doc.moments source asked events = earlier ++ m :: later) :
    m.document.noscriptDepth = (earlier.map Moment.event).foldl Event.depth 0 := by
  let P := fun (ms : List Moment) (d : Document) =>
    doc.Stays d ∧ d.noscriptDepth = (ms.map Moment.event).foldl Event.depth 0
  have hstep : ∀ ms m, P ms m.document → m.document.finished = false →
      P (ms ++ [m]) (m.next source) := by
    intro ms m h _
    refine ⟨h.1.next, ?_⟩
    rw [Moment.depth_next h.1.active, h.2]
    simp
  have hstart : P [] doc := ⟨⟨ha, rfl, rfl⟩, hfresh.noscriptDepth⟩
  exact (course_at hstep asked events hstart hm).1.2

theorem Balanced.depth_ne_zero {front rear : List Event} (h : Balanced (front ++ rear))
    {opening : Event} (ho : opening.opensNoscript = true) (earlier : List Event) :
    (earlier ++ opening :: front).foldl Event.depth 0 ≠ 0 := by
  rw [List.foldl_append, List.foldl_cons, Event.depth, if_pos ho]
  have hle := h.le_depth rfl (earlier.foldl Event.depth 0 + 1)
  omega

end ImagePreview

import ImagePreview.Proofs.Document.Draft
import ImagePreview.Proofs.Document.Insertion
import ImagePreview.Proofs.Document.Parts

/-!
Where the marks of the open window stand: between the texts of two moments, before the last
`</body>` and behind the last image with a preview. What comes later is only added behind them, so
this stays so until the window is closed, and it can always be closed.
-/
namespace ImagePreview

open Markup

namespace Markup

theorem StartTag.write_ne_nil {tag : StartTag} (h : tag.source = none) : tag.write ≠ [] := by
  simp [write, h]

theorem StartTag.source_withPreview {tag : StartTag} (h : tag.has sourceAttribute = true)
    (mode : Mode) (preview : Preview) (placeholder : Option Text) :
    (tag.withPreview mode preview placeholder).source = none := by
  have hmoved : (tag.rename sourceAttribute fullAttribute).source = none := by
    rw [rename, if_pos h]
  cases mode with
  | inline => rfl
  | scripted =>
    cases placeholder with
    | none => exact hmoved
    | some url => rfl

end Markup

theorem Document.buffer_advance_token (doc : Document) (source : Source) (asked : List Lookup)
    (t : Token) :
    let added :=
      if doc.isActive then doc.pieces source asked (.token t) else doc.unit source asked (.token t)
    (doc.advance source asked (.token t)).1.buffer =
      { closed := doc.buffer.closed
        window := doc.buffer.window ++ added
        bodyEnd := if t.isBodyEnd then some doc.buffer.window.length else doc.buffer.bodyEnd
        previewEnd :=
          if (doc.treatmentAt source asked (.token t)).shows then
            some (doc.buffer.window ++ added).length
          else doc.buffer.previewEnd } := by
  intro added
  cases ha : doc.isActive with
  | true =>
    rw [advance_token ha]
    simp only [added, ha, if_true]
    rfl
  | false =>
    have hnone := @treatmentAt_of_inactive doc source asked ha (.token t)
    have hadded : added = Piece.ofToken t := by
      simp only [added, ha, Bool.false_eq_true, if_false]
      exact unit_of_none hnone
    rw [hadded, hnone]
    cases t with
    | startTag tag =>
      rw [advance, startTag, ha]
      rfl
    | endTag tag =>
      have hfollow : doc.follow (.token (.endTag tag)) = [] := by simp [follow, Event.starts]
      rw [advance, endTag_eq, bufferAfter_of_none hnone, hfollow]
      simp [Treatment.shows]
    | text t => rfl

namespace Moment

variable (source : Source) (m : Moment)

def added : List Piece := (m.next source).buffer.window.drop m.document.buffer.window.length

variable {source m} {t : Token}

theorem added_of_token (ht : m.event = .token t) :
    m.added source = if m.document.isActive then m.pieces source else m.unit source := by
  rw [added, next, ht, Document.buffer_advance_token, List.drop_left, pieces, unit, ht]

theorem buffer_next (ht : m.event = .token t) :
    (m.next source).buffer =
      { closed := m.document.buffer.closed
        window := m.document.buffer.window ++ m.added source
        bodyEnd :=
          if m.isBodyEnd then some m.document.buffer.window.length
          else m.document.buffer.bodyEnd
        previewEnd :=
          if m.shows source then some (m.document.buffer.window ++ m.added source).length
          else m.document.buffer.previewEnd } := by
  rw [added_of_token ht, isBodyEnd, shows, treatment, pieces, unit, next, ht,
    Document.buffer_advance_token]

theorem write_ne_nil_of_mem_unit (assets : Assets) {piece : Piece} (h : piece ∈ m.unit source) :
    piece.write m.document.policy assets ≠ [] := by
  obtain ⟨t, rfl, hsome⟩ | ⟨tag, url, preview, rfl, he, ht⟩ | ⟨tag, rfl⟩ := m.unit_cases h
  · exact hsome
  · obtain ⟨found, hfound, -, hcandidate⟩ := candidate_of_preview ht
    cases he.symm.trans hfound
    exact StartTag.write_ne_nil
      (StartTag.source_withPreview (has_source_of_candidate hcandidate) ..)
  · exact StartTag.write_ne_nil rfl

theorem write_ne_nil_of_mem_added (ht : m.event = .token t) (assets : Assets) :
    ∀ piece ∈ m.added source, piece.write m.document.policy assets ≠ [] := by
  have hblock (blocks : List Block) :
      ∀ piece ∈ blocks.map Piece.block, piece.write m.document.policy assets ≠ [] := by
    intro piece hpiece
    obtain ⟨b, -, rfl⟩ := List.mem_map.mp hpiece
    exact Block.write_ne_nil assets _ b
  intro piece hpiece
  rw [added_of_token ht] at hpiece
  split at hpiece
  · rw [pieces, Document.pieces, List.mem_append, List.mem_append] at hpiece
    rcases hpiece with (hpiece | hpiece) | hpiece
    · exact hblock _ piece hpiece
    · exact write_ne_nil_of_mem_unit assets hpiece
    · exact hblock _ piece hpiece
  · exact write_ne_nil_of_mem_unit assets hpiece

/-- Nothing else is added around a `</body>` or an image with a preview. -/
theorem added_of_mark (h : m.isBodyEnd = true ∨ m.shows source = true) :
    m.added source = m.unit source := by
  have hbare {t : Token} (ht : m.event = .token t)
      (hlead : m.document.lead source m.asked m.event = [])
      (hfollow : m.document.follow m.event = []) : m.added source = m.unit source := by
    have hpieces : m.pieces source = m.unit source := by
      rw [pieces, Document.pieces, hlead, hfollow]
      simp [unit]
    rw [added_of_token ht, hpieces, ite_self]
  rcases h with hend | hshows
  · rw [isBodyEnd] at hend
    cases he : m.event with
    | token t =>
      rw [he] at hend
      cases t with
      | endTag tag =>
        refine hbare he ?_ ?_
        · simp [Document.lead, he, Document.treatmentAt]
        · simp [Document.follow, he, Event.starts]
      | startTag tag | text t => contradiction
    | flush | finish =>
      rw [he] at hend
      contradiction
  · cases ht : m.treatment source with
    | preview url preview =>
      obtain ⟨tag, he, hlooks, -⟩ := candidate_of_preview ht
      have himage := Document.isImage_of_looksAt hlooks
      refine hbare he ?_ ?_
      · rw [treatment] at ht
        simp [Document.lead, ht]
      · have hbody : Event.starts .body (.token (.startTag tag)) = false :=
          Document.not_starts_of_isImage himage rfl
        have hhead : Event.starts .head (.token (.startTag tag)) = false :=
          Document.not_starts_of_isImage himage rfl
        simp [Document.follow, he, hbody, hhead]
    | placeholder | none =>
      rw [shows, ht] at hshows
      contradiction

end Moment

def addedBy (source : Source) (ms : List Moment) : List Piece := ms.flatMap (Moment.added source)

@[simp] theorem addedBy_append (source : Source) (a b : List Moment) :
    addedBy source (a ++ b) = addedBy source a ++ addedBy source b := List.flatMap_append

@[simp] theorem addedBy_singleton (source : Source) (m : Moment) :
    addedBy source [m] = m.added source := by simp [addedBy]

/-- The documents that come from a first one as events are taken and its output is, each with the
moments that wrote its open window. -/
inductive Document.Reached (source : Source) (assets : Assets) (first : Document) :
    List Moment → Document → Prop
  | start : Reached source assets first [] first
  | token {late : List Moment} {m : Moment} {t : Token} :
    Reached source assets first late m.document → m.document.finished = false →
    m.event = .token t → Reached source assets first (late ++ [m]) (m.next source)
  | closed {late : List Moment} {m : Moment} :
    Reached source assets first late m.document → m.document.finished = false →
    m.event.closes = true → Reached source assets first [] (m.next source)
  | taken {late : List Moment} {doc : Document} :
    Reached source assets first late doc → Reached source assets first late (doc.take assets).2

structure Marked (source : Source) (assets : Assets) (policy : Policy) (late : List Moment)
    (buffer : Buffer) : Prop where
  window : buffer.window = addedBy source late
  bodyEnd : LastAt Moment.isBodyEnd (fun a _ => (addedBy source a).length) late buffer.bodyEnd
  previewEnd :
    LastAt (Moment.shows source) (fun a m => (addedBy source (a ++ [m])).length) late
      buffer.previewEnd
  same_policy : ∀ x ∈ late, x.document.policy = policy
  written : ∀ piece ∈ buffer.window, piece.write policy assets ≠ []

namespace Marked

variable {source : Source} {assets : Assets} {policy : Policy} {late : List Moment}

theorem nil (closed : List Piece) : Marked source assets policy [] { closed } where
  window := rfl
  bodyEnd := by simp [LastAt]
  previewEnd := by simp [LastAt]
  same_policy := by simp
  written := by simp

theorem push {m : Moment} {t : Token}
    (h : Marked source assets m.document.policy late m.document.buffer)
    (ht : m.event = .token t) :
    Marked source assets m.document.policy (late ++ [m]) (m.next source).buffer := by
  rw [Moment.buffer_next ht]
  refine ⟨by simp [h.window], ?_, ?_, ?_, ?_⟩
  · cases hb : m.isBodyEnd with
    | true => simpa [h.window] using LastAt.push_last hb late
    | false => simpa using LastAt.push_other hb h.bodyEnd
  · cases hs : m.shows source with
    | true => simpa [h.window] using LastAt.push_last hs late
    | false => simpa using LastAt.push_other hs h.previewEnd
  · intro x hx
    rcases List.mem_append.mp hx with hx | hx
    · exact h.same_policy x hx
    · rw [List.mem_singleton.mp hx]
  · intro piece hpiece
    rcases List.mem_append.mp hpiece with hpiece | hpiece
    · exact h.written piece hpiece
    · exact Moment.write_ne_nil_of_mem_added ht assets piece hpiece

end Marked

namespace Document

variable {source : Source} {assets : Assets} {first doc : Document} {late : List Moment}

theorem reached_run (first : Document) (source : Source) (assets : Assets) (asked : List Lookup)
    (events : List Event) :
    first.Reached source assets
      (Windows.ofMoments source (first.moments source asked events)).late
      (first.run source asked events).document := by
  let P := fun ms doc => first.Reached source assets (Windows.ofMoments source ms).late doc
  have hstep : ∀ ms m, P ms m.document → m.document.finished = false →
      P (ms ++ [m]) (m.next source) := by
    intro ms m h hf
    obtain ⟨t, ht⟩ | hc := m.event.token_or_closes
    · simp only [P, Windows.ofMoments_token ht]
      exact h.token hf ht
    · simp only [P, Windows.ofMoments_closes hc]
      exact h.closed hf hc
  have hstart : P [] first := .start
  exact course_induction hstep asked events hstart

theorem Reached.marked (h : first.Reached source assets late doc) (hfresh : first.Fresh) :
    Marked source assets doc.policy late doc.buffer := by
  induction h with
  | start =>
    rw [hfresh.buffer]
    exact .nil []
  | @token late m t _ _ ht ih =>
    -- the window grows behind its marks, which stay as they are or move to one of its ends
    rw [Moment.next, (policy_advance m.event).1, ← Moment.next]
    exact ih.push ht
  | closed _ _ hc _ =>
    rw [Moment.next, (advance_closes_settles hc).2]
    exact .nil _
  | taken _ ih => exact ⟨ih.window, ih.bodyEnd, ih.previewEnd, ih.same_policy, ih.written⟩

end Document

/-- The places in the window of some moments: before its last `</body>`, or else at its end, with
`body` before it; and behind its last image with a preview, or else at the first place, with
`preview` before it. -/
structure Places (source : Source) (late body preview : List Moment) : Prop where
  before_body : (body = late ∧ ∀ x ∈ late, x.isBodyEnd = false) ∨
    ∃ x rest, late = body ++ x :: rest ∧ x.isBodyEnd = true ∧ ∀ y ∈ rest, y.isBodyEnd = false
  behind_preview : (preview = body ∧ ∀ x ∈ late, x.shows source = false) ∨
    ∃ front x rest, preview = front ++ [x] ∧ late = preview ++ rest ∧ x.shows source = true ∧
      ∀ y ∈ rest, y.shows source = false

namespace Marked

variable {source : Source} {assets : Assets} {policy : Policy} {late : List Moment}
  {buffer : Buffer}

theorem exists_places (h : Marked source assets policy late buffer) :
    ∃ body preview, Places source late body preview ∧
      buffer.bodyEnd =
        (if late.any Moment.isBodyEnd then some (addedBy source body).length else none) ∧
      buffer.previewEnd =
        (if late.any (Moment.shows source) then some (addedBy source preview).length
        else none) := by
  have hbody : ∃ body, ((body = late ∧ ∀ x ∈ late, x.isBodyEnd = false) ∨
      ∃ x rest, late = body ++ x :: rest ∧ x.isBodyEnd = true ∧
        ∀ y ∈ rest, y.isBodyEnd = false) ∧
      buffer.bodyEnd =
        if late.any Moment.isBodyEnd then some (addedBy source body).length else none := by
    have hmark := h.bodyEnd
    cases hb : buffer.bodyEnd with
    | none =>
      rw [hb] at hmark
      have hnone : ∀ x ∈ late, x.isBodyEnd = false := hmark
      exact ⟨late, Or.inl ⟨rfl, hnone⟩, by rw [if_neg (by simpa using hnone)]⟩
    | some n =>
      rw [hb] at hmark
      obtain ⟨a, x, b, rfl, hx, hnone, rfl⟩ := hmark
      exact ⟨a, Or.inr ⟨x, b, rfl, hx, hnone⟩, by simp [hx]⟩
  obtain ⟨body, hbefore, hbodyEnd⟩ := hbody
  have hmark := h.previewEnd
  cases hp : buffer.previewEnd with
  | none =>
    rw [hp] at hmark
    have hnone : ∀ x ∈ late, x.shows source = false := hmark
    exact ⟨body, body, ⟨hbefore, Or.inl ⟨rfl, hnone⟩⟩, hbodyEnd,
      by rw [if_neg (by simpa using hnone)]⟩
  | some n =>
    rw [hp] at hmark
    obtain ⟨a, x, b, rfl, hx, hnone, rfl⟩ := hmark
    exact ⟨body, a ++ [x], ⟨hbefore, Or.inr ⟨a, x, b, rfl, by simp, hx, hnone⟩⟩, hbodyEnd,
      by simp [hx]⟩

end Marked

namespace Places

variable {source : Source} {late body preview : List Moment} {buffer : Buffer}

theorem begins (h : Places source late body preview) : body <+: late ∧ preview <+: late := by
  have hbody : body <+: late := by
    obtain ⟨rfl, -⟩ | ⟨x, rest, rfl, -⟩ := h.before_body
    · exact List.prefix_rfl
    · exact List.prefix_append ..
  obtain ⟨rfl, -⟩ | ⟨front, x, rest, -, rfl, -⟩ := h.behind_preview
  · exact ⟨hbody, hbody⟩
  · exact ⟨hbody, List.prefix_append ..⟩

/-- The marks at the places are where the window is cut. -/
theorem cut (h : Places source late body preview) (hw : buffer.window = addedBy source late)
    (hb : buffer.bodyEnd =
      if late.any Moment.isBodyEnd then some (addedBy source body).length else none)
    (hp : buffer.previewEnd =
      if late.any (Moment.shows source) then some (addedBy source preview).length else none) :
    buffer.Cut (addedBy source body) (addedBy source preview) := by
  have hbegins {front : List Moment} (hfront : front <+: late) :
      addedBy source front <+: buffer.window := by
    obtain ⟨rest, rfl⟩ := hfront
    exact ⟨addedBy source rest, by rw [hw, addedBy_append]⟩
  refine ⟨hbegins h.begins.1, hbegins h.begins.2, ?_, ?_⟩
  · rw [hb]
    obtain ⟨rfl, hnone⟩ | ⟨x, rest, rfl, hx, -⟩ := h.before_body
    · rw [if_neg (by simpa using hnone), Option.getD_none, hw]
    · simp [hx]
  · rw [hp]
    obtain ⟨rfl, hnone⟩ | ⟨front, x, rest, rfl, rfl, hx, -⟩ := h.behind_preview
    · rw [if_neg (by simpa using hnone), Option.getD_none]
    · simp [hx]

end Places

/-- A window can be closed at any time: its marks are offsets between the texts of its moments,
before its last `</body>` and behind its last image with a preview, and what is put in goes there. -/
theorem closing_at_marks (classify : Classifier) (settings : Settings) (url client : Text)
    (source : Source) (assets : Assets) {late : List Moment} {doc : Document}
    (h : (Document.start classify settings url client).Reached source assets late doc) :
    let draft := doc.buffer.draft doc.policy assets
    let text := fun ms => Piece.render doc.policy assets (addedBy source ms)
    ∃ body preview, Places source late body preview ∧ draft.window = text late ∧
      draft.bodyEnd =
        (if late.any Moment.isBodyEnd then some (Text.byteSize (text body)) else none) ∧
      draft.previewEnd =
        (if late.any (Moment.shows source) then some (Text.byteSize (text preview)) else none) ∧
      (∀ x ∈ late, x.isBodyEnd = true ∨ x.shows source = true →
        text [x] = x.text source assets) ∧
      (∀ trailer scripts tail : Text, ∃ woven,
        Woven trailer scripts draft.window (text body) (text preview) woven ∧
        draft.close? trailer scripts tail = some { closed := draft.closed ++ woven ++ tail }) ∧
      ∀ trailer scripts tail : List Piece,
        draft.close? (Piece.render doc.policy assets trailer)
            (Piece.render doc.policy assets scripts) (Piece.render doc.policy assets tail) =
          some ((doc.buffer.close trailer scripts tail).draft doc.policy assets) := by
  intro draft text
  have hmarked := h.marked (Document.fresh_start ..)
  obtain ⟨body, preview, hplaces, hbodyEnd, hpreviewEnd⟩ := hmarked.exists_places
  have hcut := hplaces.cut hmarked.window hbodyEnd hpreviewEnd
  have hoffset (p : Moment → Bool) {front : List Moment}
      (hfront : addedBy source front <+: doc.buffer.window) :
      (if late.any p then some (addedBy source front).length else none).map
          (doc.buffer.offset doc.policy assets) =
        if late.any p then some (Text.byteSize (text front)) else none := by
    split
    · exact congrArg some (Buffer.offset_length hfront)
    · rfl
  refine ⟨body, preview, hplaces, ?_, ?_, ?_, ?_, hcut.close?_texts,
    hcut.close?_pieces hmarked.written⟩
  · simp only [draft, text, Buffer.draft, hmarked.window]
  · simp only [draft, Buffer.draft, hbodyEnd, hoffset _ hcut.body_begins]
  · simp only [draft, Buffer.draft, hpreviewEnd, hoffset _ hcut.preview_begins]
  · intro x hx hmark
    have hunit := @Moment.render_unit source assets x
    rw [hmarked.same_policy x hx] at hunit
    simp only [text, addedBy_singleton, Moment.added_of_mark hmark, hunit]

namespace Sample

def closing : List Event :=
  [image "a".toList, .token (.text "é".toList), .token (.endTag { name := "body".toList })]

end Sample

theorem sample_closing_at_marks :
    let late := (Windows.ofMoments Sample.source
      (Sample.document.moments Sample.source [] Sample.closing)).late
    let doc := (Sample.document.run Sample.source [] Sample.closing).document
    let draft := doc.buffer.draft doc.policy .usual
    Sample.document.Reached Sample.source .usual late doc ∧
      (∃ n m, draft.bodyEnd = some n ∧ draft.previewEnd = some m) ∧
      ∀ trailer scripts tail : Text, ∃ closed,
        draft.close? trailer scripts tail = some { closed } := by
  intro late doc draft
  have hreached := Document.reached_run Sample.document Sample.source .usual [] Sample.closing
  obtain ⟨body, preview, -, -, hbody, hpreview, -, hcloses, -⟩ :=
    closing_at_marks Sample.classify Sample.settings [] [] Sample.source .usual hreached
  have hends : late.any Moment.isBodyEnd = true := by decide +kernel
  have hshows : late.any (Moment.shows Sample.source) = true := by decide +kernel
  rw [if_pos hends] at hbody
  rw [if_pos hshows] at hpreview
  refine ⟨hreached, ⟨_, _, hbody, hpreview⟩, fun trailer scripts tail => ?_⟩
  obtain ⟨woven, -, hclose⟩ := hcloses trailer scripts tail
  exact ⟨_, hclose⟩

end ImagePreview

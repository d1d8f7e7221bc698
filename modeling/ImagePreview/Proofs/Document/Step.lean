import ImagePreview.Proofs.Document.Moment

/-!
What one event does to a document, part by part: what it writes into the open window and around
which blocks, where it leaves the marks, and what becomes of the ledger and of the blocks that stand
in a document once.
-/
namespace ImagePreview

open Markup

def Treatment.unit (tag : StartTag) : Treatment → List Piece
  | preview url p => [.preview tag url p]
  | placeholder => [.placeholder tag]
  | none => Piece.ofToken (.startTag tag)

def Treatment.shows : Treatment → Bool
  | preview _ _ => true
  | _ => false

def Markup.Token.isBodyEnd : Token → Bool
  | endTag tag => tag.isNamed "body".toList
  | _ => false

namespace Event

def starts (element : Element) : Event → Bool
  | token (.startTag tag) => decide (tag.element = element)
  | _ => false

def closes : Event → Bool
  | flush => true
  | finish => true
  | _ => false

theorem token_or_closes (event : Event) : (∃ t, event = token t) ∨ event.closes = true := by
  cases event with
  | token t => exact Or.inl ⟨t, rfl⟩
  | flush | finish => exact Or.inr rfl

theorem eq_flush {event : Event} (hc : event.closes = true) (hf : event ≠ .finish) :
    event = .flush := by
  cases event with
  | token t => contradiction
  | flush => rfl
  | finish => contradiction

end Event

namespace Document

variable (doc : Document) (source : Source) (asked : List Lookup)

/-- Whether an image is looked at: in an active document, outside of `noscript`. -/
def looksAt (tag : StartTag) : Bool :=
  doc.isActive && (tag.element.isImage && doc.noscriptDepth == 0)

/-- The treatment of a start tag. One that is no image, or that is not looked at, stays as it is. -/
def treatment (tag : StartTag) : Treatment :=
  if doc.looksAt tag then (treat doc.policy source asked doc.ledger tag).treatment else .none

def treatmentAt : Event → Treatment
  | .token (.startTag tag) => doc.treatment source asked tag
  | _ => .none

def unit : Event → List Piece
  | .token (.startTag tag) => (doc.treatment source asked tag).unit tag
  | .token t => Piece.ofToken t
  | _ => []

def lead (event : Event) : List Block :=
  if doc.treatmentAt source asked event = .placeholder && !doc.written.lazyLibrary then
    [.lazyLibrary]
  else []

def follow (event : Event) : List Block :=
  (if event.starts .body && !doc.written.fallback then [.fallback doc.url] else []) ++
    (if doc.policy.settings.deferScripts && (event.starts .head && !doc.written.deferHead) then
      [.deferHead]
    else []) ++
    if doc.policy.settings.deferScripts && event = .finish then [.deferLoader] else []

def pieces (event : Event) : List Piece :=
  (doc.lead source asked event).map .block ++ doc.unit source asked event ++
    (doc.follow event).map .block

def ledgerAfter : Event → Ledger
  | .token (.startTag tag) =>
    if doc.looksAt tag then
      let treated := treat doc.policy source asked doc.ledger tag
      match treated.treatment with
      | .preview url preview =>
        if doc.policy.mode = .scripted then treated.ledger.register url preview else treated.ledger
      | _ => treated.ledger
    else doc.ledger
  | _ => doc.ledger

/-- The trace of the image that an event is about, if it is looked at. -/
def imageTrace : Event → Trace
  | .token (.startTag tag) =>
    if doc.looksAt tag then (treat doc.policy source asked doc.ledger tag).trace else {}
  | _ => {}

def lookups (event : Event) : List Lookup := (doc.imageTrace source asked event).lookups

def writtenAfter (event : Event) : Written :=
  { doc.written with
    fallback := doc.written.fallback || event.starts .body
    deferHead :=
      doc.written.deferHead || (event.starts .head && doc.policy.settings.deferScripts)
    lazyLibrary :=
      doc.written.lazyLibrary || decide (doc.treatmentAt source asked event = .placeholder) }

def depthAfter : Token → Nat
  | .startTag tag =>
    if tag.element = .noscript ∧ tag.selfClosing = false then doc.noscriptDepth + 1
    else doc.noscriptDepth
  | .endTag tag =>
    if tag.isNamed "noscript".toList then doc.noscriptDepth - 1 else doc.noscriptDepth
  | .text _ => doc.noscriptDepth

def bufferAfter (t : Token) : Buffer :=
  let window := doc.buffer.window ++ doc.pieces source asked (.token t)
  { closed := doc.buffer.closed
    window := window
    bodyEnd := if t.isBodyEnd then some doc.buffer.window.length else doc.buffer.bodyEnd
    previewEnd :=
      if (doc.treatmentAt source asked (.token t)).shows then some window.length
      else doc.buffer.previewEnd }

def writtenAtClose (finishing : Bool) : Written :=
  { doc.written with
    previewLibrary := doc.isDue || doc.written.previewLibrary
    registrations := doc.isRegistered
    activation := (finishing && doc.isRegistered) || doc.written.activation }

variable {doc source asked}

theorem startTag_of_looksAt {tag : StartTag} (h : doc.looksAt tag = true) :
    doc.startTag source asked tag = doc.image source asked tag := by
  simp only [looksAt, Bool.and_eq_true] at h
  simp [startTag, h]

theorem startTag_of_not_looksAt {tag : StartTag} (ha : doc.isActive = true)
    (h : doc.looksAt tag = false) : doc.startTag source asked tag = (doc.plainTag tag, {}) := by
  rw [looksAt, ha, Bool.true_and] at h
  simp [startTag, ha, h]

theorem isImage_of_looksAt {tag : StartTag} (h : doc.looksAt tag = true) :
    tag.element.isImage = true := by
  simp only [looksAt, Bool.and_eq_true] at h
  exact h.2.1

theorem not_starts_of_isImage {tag : StartTag} (h : tag.element.isImage = true) {element : Element}
    (he : element.isImage = false) : Event.starts element (.token (.startTag tag)) = false := by
  have hne : tag.element ≠ element := by
    intro heq
    rw [heq, he] at h
    contradiction
  simpa [Event.starts] using hne

theorem image_eq {tag : StartTag} (h : doc.looksAt tag = true) :
    (doc.image source asked tag).1 =
      { doc with
        ledger := doc.ledgerAfter source asked (.token (.startTag tag))
        written := doc.writtenAfter source asked (.token (.startTag tag))
        noscriptDepth := doc.depthAfter (.startTag tag)
        buffer := doc.bufferAfter source asked (.startTag tag) } := by
  have hi := isImage_of_looksAt h
  have hbody : Event.starts .body (.token (.startTag tag)) = false := not_starts_of_isImage hi rfl
  have hhead : Event.starts .head (.token (.startTag tag)) = false := not_starts_of_isImage hi rfl
  have hn : tag.element ≠ .noscript := by
    intro he
    rw [he] at hi
    contradiction
  cases ht : (treat doc.policy source asked doc.ledger tag).treatment with
  | preview url preview =>
    simp [image, ht, ledgerAfter, writtenAfter, depthAfter, bufferAfter, h, hn, hbody, hhead,
      treatmentAt, treatment, pieces, lead, follow, unit, Treatment.unit, Treatment.shows,
      Token.isBodyEnd, Buffer.push, Buffer.markPreview]
  | placeholder =>
    cases hl : doc.written.lazyLibrary <;>
    simp [image, ht, ledgerAfter, writtenAfter, depthAfter, bufferAfter, h, hn, hbody, hhead, hl,
      treatmentAt, treatment, pieces, lead, follow, unit, Treatment.unit, Treatment.shows,
      Token.isBodyEnd, Document.push, Buffer.push]
  | none =>
    simp [image, ht, ledgerAfter, writtenAfter, depthAfter, bufferAfter, h, hn, hbody, hhead,
      treatmentAt, treatment, pieces, lead, follow, unit, Treatment.unit, Treatment.shows,
      Token.isBodyEnd, Document.push, pushToken, Buffer.push]

theorem unit_of_none {t : Token} (h : doc.treatmentAt source asked (.token t) = .none) :
    doc.unit source asked (.token t) = Piece.ofToken t := by
  cases t with
  | startTag tag =>
    have ht : doc.treatment source asked tag = .none := h
    simp [unit, ht, Treatment.unit]
  | endTag tag => rfl
  | text t => rfl

theorem pieces_of_none {t : Token} (h : doc.treatmentAt source asked (.token t) = .none) :
    doc.pieces source asked (.token t) =
      Piece.ofToken t ++ (doc.follow (.token t)).map .block := by
  simp [pieces, unit_of_none h, lead, h]

theorem writtenAfter_of_none {t : Token} (h : doc.treatmentAt source asked (.token t) = .none) :
    doc.writtenAfter source asked (.token t) =
      { doc.written with
        fallback := doc.written.fallback || Event.starts .body (.token t)
        deferHead := doc.written.deferHead ||
          (Event.starts .head (.token t) && doc.policy.settings.deferScripts) } := by
  simp [writtenAfter, h]

theorem bufferAfter_of_none {t : Token} (h : doc.treatmentAt source asked (.token t) = .none) :
    doc.bufferAfter source asked t =
      { doc.buffer with
        window := doc.buffer.window ++ (Piece.ofToken t ++ (doc.follow (.token t)).map .block)
        bodyEnd := if t.isBodyEnd then some doc.buffer.window.length else doc.buffer.bodyEnd } := by
  simp [bufferAfter, pieces_of_none h, h, Treatment.shows]

theorem plainTag_eq {tag : StartTag} (h : doc.looksAt tag = false) :
    doc.plainTag tag =
      { doc with
        ledger := doc.ledgerAfter source asked (.token (.startTag tag))
        written := doc.writtenAfter source asked (.token (.startTag tag))
        noscriptDepth := doc.depthAfter (.startTag tag)
        buffer := doc.bufferAfter source asked (.startTag tag) } := by
  have ht : doc.treatmentAt source asked (.token (.startTag tag)) = .none := by
    simp [treatmentAt, treatment, h]
  have hl : doc.ledgerAfter source asked (.token (.startTag tag)) = doc.ledger := by
    simp [ledgerAfter, h]
  rw [hl, writtenAfter_of_none ht, bufferAfter_of_none ht]
  cases he : tag.element with
  | noscript =>
    cases hs : tag.selfClosing <;>
      simp [plainTag, he, hs, Event.starts, depthAfter, follow, Token.isBodyEnd, push, pushToken,
        Buffer.push]
  | head =>
    cases hd : doc.policy.settings.deferScripts <;> cases hw : doc.written.deferHead <;>
      simp [plainTag, he, hd, hw, Event.starts, depthAfter, follow, Token.isBodyEnd, push,
        pushToken, Buffer.push] <;> rw [← hw]
  | body =>
    cases hw : doc.written.fallback <;>
      simp [plainTag, he, hw, Event.starts, depthAfter, follow, Token.isBodyEnd, push, pushToken,
        Buffer.push]
    rw [← hw]
  | image | imageInput | other =>
    simp [plainTag, he, Event.starts, depthAfter, follow, Token.isBodyEnd, push, pushToken,
      Buffer.push]

theorem not_isBodyEnd_of_noscript {tag : EndTag} (h : tag.isNamed "noscript".toList = true) :
    tag.isNamed "body".toList = false := by
  simp only [EndTag.isNamed, Text.sameWord, beq_iff_eq, beq_eq_false_iff_ne] at h ⊢
  rw [h]
  decide

theorem endTag_eq (tag : EndTag) :
    doc.endTag tag =
      { doc with
        ledger := doc.ledgerAfter source asked (.token (.endTag tag))
        written := doc.writtenAfter source asked (.token (.endTag tag))
        noscriptDepth := doc.depthAfter (.endTag tag)
        buffer := doc.bufferAfter source asked (.endTag tag) } := by
  have ht : doc.treatmentAt source asked (.token (.endTag tag)) = .none := rfl
  have hf : doc.follow (.token (.endTag tag)) = [] := by simp [follow, Event.starts]
  rw [writtenAfter_of_none ht, bufferAfter_of_none ht, hf]
  cases hn : tag.isNamed "noscript".toList with
  | true =>
    simp only [endTag, depthAfter, Token.isBodyEnd, not_isBodyEnd_of_noscript hn, if_pos hn]
    simp [ledgerAfter, Event.starts, pushToken, push, Buffer.push]
  | false =>
    cases hb : tag.isNamed "body".toList <;>
      simp only [endTag, depthAfter, Token.isBodyEnd, hn, hb] <;>
      simp [ledgerAfter, Event.starts, pushToken, push, Buffer.push, Buffer.markBodyEnd]

theorem advance_token (ha : doc.isActive = true) (t : Token) :
    (doc.advance source asked (.token t)).1 =
      { doc with
        ledger := doc.ledgerAfter source asked (.token t)
        written := doc.writtenAfter source asked (.token t)
        noscriptDepth := doc.depthAfter t
        buffer := doc.bufferAfter source asked t } := by
  cases t with
  | startTag tag =>
    cases h : doc.looksAt tag with
    | true => rw [advance, startTag_of_looksAt h, image_eq h]
    | false => rw [advance, startTag_of_not_looksAt ha h, plainTag_eq h]
  | endTag tag => exact endTag_eq tag
  | text t =>
    have ht : doc.treatmentAt source asked (.token (.text t)) = .none := rfl
    rw [writtenAfter_of_none ht, bufferAfter_of_none ht]
    simp [advance, follow, ledgerAfter, depthAfter, Event.starts, Token.isBodyEnd, pushToken, push,
      Buffer.push]

theorem advance_closes (ha : doc.isActive = true) {event : Event} (h : event.closes = true) :
    (doc.advance source asked event).1 =
      { doc with
        ledger := doc.ledger.settle
        written := doc.writtenAtClose (event = .finish)
        buffer :=
          doc.buffer.close ((doc.trailer (event = .finish)).map .block)
            ((doc.scripts (event = .finish)).map .block) ((doc.tail (event = .finish)).map .block)
        finished := doc.finished || decide (event = .finish) } := by
  cases event with
  | token t => contradiction
  | flush => simp [advance, closeWindow, ha, writtenAtClose]
  | finish => simp [advance, closeWindow, ha, writtenAtClose]

theorem pieces_closes {event : Event} (h : event.closes = true) :
    doc.pieces source asked event = (doc.tail (event = .finish)).map .block := by
  cases event with
  | token t => contradiction
  | flush => simp [pieces, lead, treatmentAt, unit, follow, Event.starts, tail]
  | finish =>
    cases hd : doc.policy.settings.deferScripts <;>
      simp [pieces, lead, treatmentAt, unit, follow, Event.starts, tail, hd]

structure Fresh (doc : Document) : Prop where
  ledger : doc.ledger = {}
  written : doc.written = {}
  noscriptDepth : doc.noscriptDepth = 0
  buffer : doc.buffer = {}
  finished : doc.finished = false

section Start

variable (classify : Classifier) (settings : Settings) (url client : Text)

theorem fresh_start : (start classify settings url client).Fresh := ⟨rfl, rfl, rfl, rfl, rfl⟩

theorem url_start : (start classify settings url client).url = url := rfl

theorem settings_start : (start classify settings url client).policy.settings = settings := rfl

end Start

structure Stays (start doc : Document) : Prop where
  active : doc.isActive = true
  policy : doc.policy = start.policy
  url : doc.url = start.url

theorem Stays.next {start : Document} {m : Moment} (h : start.Stays m.document) :
    start.Stays (m.next source) := by
  rw [Moment.next]
  obtain ⟨t, ht⟩ | hc := m.event.token_or_closes
  · rw [ht, advance_token h.active]
    exact ⟨h.active, h.policy, h.url⟩
  · rw [advance_closes h.active hc]
    exact ⟨h.active, h.policy, h.url⟩

/-- An image that shows a preview is registered, if a script is to put the preview in. -/
theorem register_ledgerAfter {event : Event} {url : Text} {preview : Preview}
    (ht : doc.treatmentAt source asked event = .preview url preview)
    (hs : doc.policy.mode = .scripted) :
    (doc.ledgerAfter source asked event).registered =
        (doc.ledger.register url preview).registered ∧
      (doc.ledgerAfter source asked event).pending =
        (doc.ledger.register url preview).pending := by
  cases event with
  | token t =>
    cases t with
    | startTag tag =>
      cases h : doc.looksAt tag with
      | true =>
        simp only [treatmentAt, treatment, h, if_true] at ht
        simp only [ledgerAfter, h, ht, hs, if_true]
        exact Ledger.register_congr registered_treat.1 registered_treat.2 url preview
      | false => simp [treatmentAt, treatment, h] at ht
    | endTag tag => contradiction
    | text t => contradiction
  | flush | finish => contradiction

theorem ledgerAfter_of_not_registering {event : Event}
    (h : (doc.treatmentAt source asked event).shows = false ∨ doc.policy.mode = .inline) :
    (doc.ledgerAfter source asked event).registered = doc.ledger.registered ∧
      (doc.ledgerAfter source asked event).pending = doc.ledger.pending := by
  cases event with
  | token t =>
    cases t with
    | startTag tag =>
      cases hl : doc.looksAt tag with
      | true =>
        simp only [treatmentAt, treatment, hl, if_true] at h
        simp only [ledgerAfter, hl, if_true]
        cases ht : (treat doc.policy source asked doc.ledger tag).treatment with
        | preview url preview =>
          have hi : doc.policy.mode = .inline := by simpa [ht, Treatment.shows] using h
          simpa [hi] using registered_treat
        | placeholder | none => exact registered_treat
      | false => simp [ledgerAfter, hl]
    | endTag tag => exact ⟨rfl, rfl⟩
    | text t => exact ⟨rfl, rfl⟩
  | flush | finish => exact ⟨rfl, rfl⟩

theorem ledgerAfter_cases (doc : Document) (source : Source) (asked : List Lookup) (event : Event) :
    (((doc.treatmentAt source asked event).shows = false ∨ doc.policy.mode = .inline) ∧
      (doc.ledgerAfter source asked event).registered = doc.ledger.registered ∧
      (doc.ledgerAfter source asked event).pending = doc.ledger.pending) ∨
    ∃ url preview, doc.treatmentAt source asked event = .preview url preview ∧
      doc.policy.mode = .scripted ∧
      (doc.ledgerAfter source asked event).registered =
        (doc.ledger.register url preview).registered ∧
      (doc.ledgerAfter source asked event).pending =
        (doc.ledger.register url preview).pending := by
  cases ht : doc.treatmentAt source asked event with
  | preview url preview =>
    cases hs : doc.policy.mode with
    | scripted => exact Or.inr ⟨url, preview, rfl, rfl, register_ledgerAfter ht hs⟩
    | inline => exact Or.inl ⟨Or.inr rfl, ledgerAfter_of_not_registering (Or.inr hs)⟩
  | placeholder | none =>
    have hshows : (doc.treatmentAt source asked event).shows = false := by rw [ht]; rfl
    exact Or.inl ⟨Or.inl rfl, ledgerAfter_of_not_registering (Or.inl hshows)⟩

/-- Images that are looked at leave a trace, and scripts with previews do. -/
theorem trace_advance (event : Event) :
    (doc.advance source asked event).2 =
      match event with
      | .token (.startTag tag) =>
        if doc.looksAt tag then (treat doc.policy source asked doc.ledger tag).trace else {}
      | .token _ => {}
      | .flush | .finish =>
        if doc.isActive && doc.isDue then .ofRecord (.ofDelay .applied) else {} := by
  cases event with
  | token t =>
    cases t with
    | startTag tag =>
      cases h : doc.looksAt tag with
      | true =>
        rw [advance, startTag_of_looksAt h]
        simp [h, image]
      | false =>
        cases ha : doc.isActive with
        | true =>
          rw [advance, startTag_of_not_looksAt ha h]
          simp [h]
        | false => simp [advance, startTag, ha, h]
    | endTag tag => rfl
    | text t => rfl
  | flush | finish => cases ha : doc.isActive <;> simp [advance, closeWindow, ha]

theorem lookups_advance (event : Event) :
    (doc.advance source asked event).2.lookups = doc.lookups source asked event := by
  rw [trace_advance]
  cases event with
  | token t => cases t <;> rfl
  | flush | finish => cases doc.isActive && doc.isDue <;> rfl

end Document
end ImagePreview

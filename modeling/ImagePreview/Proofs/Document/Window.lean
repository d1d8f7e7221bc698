import ImagePreview.Proofs.Document.Step

/-!
Windows. The open window holds what the moments since the last one wrote, and its marks stand
between two of them: before the last end of a body, and behind the last image with a preview. So a
block that is put in when the window is closed never comes between what belongs to one moment.
-/
namespace ImagePreview

open Markup

namespace Moment

variable (source : Source) (m : Moment)

def treatment : Treatment := m.document.treatmentAt source m.asked m.event

def unit : List Piece := m.document.unit source m.asked m.event

def pieces : List Piece := m.document.pieces source m.asked m.event

def shows : Bool := (m.treatment source).shows

def defers : Bool := m.treatment source = .placeholder

def isBodyEnd : Bool :=
  match m.event with
  | .token t => t.isBodyEnd
  | _ => false

variable {source m}

theorem next_of_token (ha : m.document.isActive = true) {t : Token} (ht : m.event = .token t) :
    m.next source =
      { m.document with
        ledger := m.document.ledgerAfter source m.asked m.event
        written := m.document.writtenAfter source m.asked m.event
        noscriptDepth := m.document.depthAfter t
        buffer := m.document.bufferAfter source m.asked t } := by
  rw [next, ht, Document.advance_token ha]

theorem next_of_closes (ha : m.document.isActive = true) (hc : m.event.closes = true) :
    m.next source =
      { m.document with
        ledger := m.document.ledger.settle
        written := m.document.writtenAtClose (m.event = .finish)
        buffer :=
          m.document.buffer.close ((m.document.trailer (m.event = .finish)).map .block)
            ((m.document.scripts (m.event = .finish)).map .block)
            ((m.document.tail (m.event = .finish)).map .block)
        finished := m.document.finished || decide (m.event = .finish) } := by
  rw [next, Document.advance_closes ha hc]

theorem finished_next (ha : m.document.isActive = true) :
    (m.next source).finished = (m.document.finished || decide (m.event = .finish)) := by
  obtain ⟨t, ht⟩ | hc := m.event.token_or_closes
  · rw [next_of_token ha ht, ht]
    simp
  · rw [next_of_closes ha hc]

theorem flush_of_closes (ha : m.document.isActive = true) (hc : m.event.closes = true)
    (hf : (m.next source).finished = false) : m.event = .flush :=
  Event.eq_flush hc fun he => by
    rw [finished_next ha, decide_eq_true he, Bool.or_true] at hf
    contradiction

theorem starts_of_closes (hc : m.event.closes = true) (element : Element) :
    m.event.starts element = false := by
  cases he : m.event with
  | token t => rw [he] at hc; contradiction
  | flush | finish => rfl

theorem treatment_of_closes (hc : m.event.closes = true) : m.treatment source = .none := by
  rw [treatment]
  cases he : m.event with
  | token t => rw [he] at hc; contradiction
  | flush | finish => rfl

theorem isBodyEnd_of_closes (hc : m.event.closes = true) : m.isBodyEnd = false := by
  rw [isBodyEnd]
  cases he : m.event with
  | token t => rw [he] at hc; contradiction
  | flush | finish => rfl

theorem shows_of_closes (hc : m.event.closes = true) : m.shows source = false := by
  rw [shows, treatment_of_closes hc]
  rfl

theorem defers_of_closes (hc : m.event.closes = true) : m.defers source = false := by
  simp [defers, treatment_of_closes hc]

theorem unit_cases {piece : Piece} (h : piece ∈ m.unit source) :
    (∃ t, piece = .token t ∧ t.write ≠ []) ∨
      (∃ tag url preview, piece = .preview tag url preview ∧ m.event = .token (.startTag tag) ∧
        m.treatment source = .preview url preview) ∨
      ∃ tag, piece = .placeholder tag := by
  rw [unit] at h
  rw [treatment]
  cases he : m.event with
  | token t =>
    rw [he] at h
    cases t with
    | startTag tag =>
      rw [Document.unit] at h
      cases ht : m.document.treatment source m.asked tag with
      | preview url preview =>
        rw [ht] at h
        exact Or.inr (Or.inl ⟨tag, url, preview, List.mem_singleton.mp h, rfl, ht⟩)
      | placeholder =>
        rw [ht] at h
        exact Or.inr (Or.inr ⟨tag, List.mem_singleton.mp h⟩)
      | none =>
        rw [ht] at h
        exact Or.inl ⟨_, Piece.mem_ofToken.mp h⟩
    | endTag tag | text t => exact Or.inl ⟨_, Piece.mem_ofToken.mp h⟩
  | flush | finish =>
    rw [he] at h
    contradiction

end Moment

namespace Document

variable {source : Source} {asked : List Lookup} {doc : Document}

/-- The events up to the first end of the document are taken. -/
theorem map_event_moments (ha : doc.isActive = true) (hf : doc.finished = false)
    (events : List Event) :
    (doc.moments source asked (events ++ [.finish])).map Moment.event =
        events.takeWhile (· ≠ .finish) ++ [.finish] ∧
      (doc.run source asked (events ++ [.finish])).document.finished = true := by
  induction events generalizing doc asked with
  | nil =>
    rw [List.nil_append, moments_cons hf, run_cons hf]
    simp [moments, run, Moment.finished_next, ha]
  | cons event rest ih =>
    rw [List.cons_append, moments_cons hf, run_cons hf]
    have hfinished := @Moment.finished_next source ⟨doc, asked, event⟩ ha
    rw [hf, Bool.false_or] at hfinished
    by_cases he : event = .finish
    · rw [decide_eq_true he] at hfinished
      simp only [moments_of_finished hfinished, (run_of_finished hfinished _).1, hfinished]
      simp [he]
    · rw [decide_eq_false he] at hfinished
      have hstays : doc.Stays doc := ⟨ha, rfl, rfl⟩
      have hrest := @ih (asked ++ (Moment.trace source ⟨doc, asked, event⟩).lookups) _
        (Stays.next (m := ⟨doc, asked, event⟩) hstays).active hfinished
      simpa [he] using hrest

end Document

/-- Whether a block is put in where a window is closed, at one of its marks. -/
def Block.isClosing : Block → Bool
  | previewLibrary | registrations _ | activation _ | lazyOverride => true
  | lazyLibrary | deferHead | deferLoader | fallback _ => false

/-- A mark that stands where `place` says for the last moment with `p`, if there is one. -/
def LastAt (p : Moment → Bool) (place : List Moment → Moment → Nat) (ms : List Moment) :
    Option Nat → Prop
  | none => ∀ x ∈ ms, p x = false
  | some n => ∃ a x b, ms = a ++ x :: b ∧ p x = true ∧ (∀ y ∈ b, p y = false) ∧ n = place a x

theorem LastAt.push_last {p : Moment → Bool} {place : List Moment → Moment → Nat} {m : Moment}
    (hm : p m = true) (ms : List Moment) : LastAt p place (ms ++ [m]) (some (place ms m)) :=
  ⟨ms, m, [], rfl, hm, by simp, rfl⟩

theorem LastAt.push_other {p : Moment → Bool} {place : List Moment → Moment → Nat} {m : Moment}
    (hm : p m = false) {ms : List Moment} {mark : Option Nat} (h : LastAt p place ms mark) :
    LastAt p place (ms ++ [m]) mark := by
  cases mark with
  | none =>
    intro x hx
    obtain hx | hx := List.mem_append.mp hx
    · exact h x hx
    · rw [List.mem_singleton.mp hx]
      exact hm
  | some n =>
    obtain ⟨a, x, b, rfl, hx, hb, hn⟩ := h
    refine ⟨a, x, b ++ [m], by simp, hx, ?_, hn⟩
    intro y hy
    obtain hy | hy := List.mem_append.mp hy
    · exact hb y hy
    · rw [List.mem_singleton.mp hy]
      exact hm

/-- A mark is no further down than its places are. -/
theorem LastAt.le {p : Moment → Bool} {place : List Moment → Moment → Nat} {ms : List Moment}
    {n most : Nat} (h : LastAt p place ms (some n))
    (hplace : ∀ a x b, ms = a ++ x :: b → place a x ≤ most) : n ≤ most := by
  obtain ⟨a, x, b, hms, -, -, rfl⟩ := h
  exact hplace a x b hms

theorem eq_of_split_last {α : Type} {p : α → Bool} {a b c d : List α} {x y : α}
    (h : a ++ x :: b = c ++ y :: d) (hx : p x = true) (hb : ∀ z ∈ b, p z = false)
    (hy : p y = true) (hd : ∀ z ∈ d, p z = false) : a = c ∧ x = y := by
  obtain ⟨e, rfl, he⟩ | ⟨e, rfl, he⟩ := List.append_eq_append_iff.mp h
  · cases e with
    | nil => exact ⟨(List.append_nil a).symm, (List.cons.inj he).1⟩
    | cons z e =>
      have hmem : y ∈ b := by simp [(List.cons.inj he).2]
      rw [hb y hmem] at hy
      contradiction
  · cases e with
    | nil => exact ⟨List.append_nil c, (List.cons.inj he).1.symm⟩
    | cons z e =>
      have hmem : x ∈ d := by simp [(List.cons.inj he).2]
      rw [hd x hmem] at hx
      contradiction

def piecesOf (source : Source) (ms : List Moment) : List Piece := ms.flatMap (Moment.pieces source)

@[simp] theorem piecesOf_append (source : Source) (a b : List Moment) :
    piecesOf source (a ++ b) = piecesOf source a ++ piecesOf source b := List.flatMap_append

@[simp] theorem piecesOf_singleton (source : Source) (m : Moment) :
    piecesOf source [m] = m.pieces source := by simp [piecesOf]

structure Opened (source : Source) (ms : List Moment) (buffer : Buffer) : Prop where
  window : buffer.window = piecesOf source ms
  bodyEnd : LastAt Moment.isBodyEnd (fun a _ => (piecesOf source a).length) ms buffer.bodyEnd
  previewEnd :
    LastAt (Moment.shows source) (fun a m => (piecesOf source (a ++ [m])).length) ms
      buffer.previewEnd

namespace Opened

variable {source : Source} {ms : List Moment} {buffer : Buffer}

theorem nil (closed : List Piece) : Opened source [] { closed } :=
  ⟨rfl, by simp [LastAt], by simp [LastAt]⟩

theorem push {m : Moment} {t : Token} (h : Opened source ms m.document.buffer)
    (ha : m.document.isActive = true) (he : m.event = .token t) :
    Opened source (ms ++ [m]) (m.next source).buffer := by
  have hnext : (m.next source).buffer = m.document.bufferAfter source m.asked t := by
    rw [Moment.next_of_token ha he]
  have hpieces : m.document.pieces source m.asked (.token t) = m.pieces source := by
    rw [Moment.pieces, he]
  have hend : m.isBodyEnd = t.isBodyEnd := by rw [Moment.isBodyEnd, he]
  have hshows : m.shows source =
      (m.document.treatmentAt source m.asked (.token t)).shows := by
    rw [Moment.shows, Moment.treatment, he]
  rw [hnext, Document.bufferAfter, hpieces, ← hend, ← hshows]
  refine ⟨by simp [h.window], ?_, ?_⟩
  · cases hb : m.isBodyEnd with
    | true => simpa [h.window] using LastAt.push_last hb ms
    | false => simpa using LastAt.push_other hb h.bodyEnd
  · cases hs : m.shows source with
    | true => simpa [h.window] using LastAt.push_last hs ms
    | false => simpa using LastAt.push_other hs h.previewEnd

theorem bodyEnd_le (h : Opened source ms buffer) :
    buffer.bodyEnd.getD buffer.window.length ≤ buffer.window.length := by
  cases hb : buffer.bodyEnd with
  | none => simp
  | some n =>
    refine (hb ▸ h.bodyEnd).le ?_
    rintro a x b rfl
    simp [h.window, piecesOf]

theorem previewEnd_le (h : Opened source ms buffer) :
    buffer.previewEnd.getD (buffer.bodyEnd.getD buffer.window.length) ≤ buffer.window.length := by
  cases hp : buffer.previewEnd with
  | none => simpa using h.bodyEnd_le
  | some n =>
    refine (hp ▸ h.previewEnd).le ?_
    rintro a x b rfl
    simp [h.window, piecesOf]

/-- Nothing that shows a preview stands behind the last image with one. -/
theorem drop_previewEnd (h : Opened source ms buffer) :
    ∃ rest, (∀ x ∈ rest, x.shows source = false) ∧
      ∀ piece ∈ buffer.window.drop
        (buffer.previewEnd.getD (buffer.bodyEnd.getD buffer.window.length)),
        piece ∈ piecesOf source rest := by
  have hmark := h.previewEnd
  cases hp : buffer.previewEnd with
  | none =>
    rw [hp] at hmark
    refine ⟨ms, hmark, fun piece hpiece => ?_⟩
    rw [← h.window]
    exact List.mem_of_mem_drop hpiece
  | some n =>
    rw [hp] at hmark
    obtain ⟨a, x, b, rfl, -, hb, rfl⟩ := hmark
    refine ⟨b, hb, fun piece hpiece => ?_⟩
    have hsplit : buffer.window = piecesOf source (a ++ [x]) ++ piecesOf source b := by
      rw [h.window, ← piecesOf_append, List.append_assoc, List.singleton_append]
    rw [Option.getD_some, hsplit, List.drop_left] at hpiece
    exact hpiece

theorem close {m : Moment} (ha : m.document.isActive = true) (hc : m.event.closes = true) :
    Opened source [] (m.next source).buffer := by
  rw [Moment.next_of_closes ha hc]
  exact nil _

end Opened

namespace Buffer

theorem insertAt_append {n : Nat} {pieces : List Piece} (h : n ≤ pieces.length)
    (extra rest : List Piece) :
    insertAt n extra pieces ++ rest = insertAt n extra (pieces ++ rest) := by
  simp [insertAt, List.take_append_of_le_length h, List.drop_append_of_le_length h]

theorem le_length_insertAt {n m : Nat} {extra pieces : List Piece} (h : m ≤ pieces.length) :
    m ≤ (insertAt n extra pieces).length := by
  simp only [insertAt, List.length_append, List.length_take, List.length_drop]
  omega

theorem filterMap_insertAt {β : Type} (f : Piece → Option β) {n : Nat} {extra : List Piece}
    (h : extra.filterMap f = []) (pieces : List Piece) :
    (insertAt n extra pieces).filterMap f = pieces.filterMap f := by
  rw [insertAt, List.filterMap_append, List.filterMap_append, h, List.append_nil,
    ← List.filterMap_append, List.take_append_drop]

theorem take_insertAt {n m : Nat} {pieces : List Piece} (hm : m ≤ n) (hn : n ≤ pieces.length)
    (extra : List Piece) :
    (insertAt n extra pieces).take m = pieces.take m ∧
      (insertAt n extra pieces).drop m = (pieces.take n).drop m ++ extra ++ pieces.drop n := by
  have hlen : m ≤ (pieces.take n).length := by
    rw [List.length_take]
    omega
  rw [insertAt, List.append_assoc]
  constructor
  · rw [List.take_append_of_le_length hlen, List.take_take, Nat.min_eq_left hm]
  · rw [List.drop_append_of_le_length hlen, List.append_assoc]

/-- A closed window is cut in two by its scripts. Nothing but the trailer is new on either side,
and behind them stands only what stood behind the last image with a preview. -/
theorem woven_scripts (buffer : Buffer) (trailer scripts : List Piece)
    (hb : buffer.bodyEnd.getD buffer.window.length ≤ buffer.window.length)
    (hp : buffer.previewEnd.getD (buffer.bodyEnd.getD buffer.window.length) ≤
      buffer.window.length) :
    ∃ front rear, buffer.woven trailer scripts = front ++ scripts ++ rear ∧
      (∀ {β : Type} (f : Piece → Option β), trailer.filterMap f = [] →
        front.filterMap f ++ rear.filterMap f = buffer.window.filterMap f) ∧
      ∀ piece ∈ rear, piece ∈ trailer ∨ piece ∈ buffer.window.drop
        (buffer.previewEnd.getD (buffer.bodyEnd.getD buffer.window.length)) := by
  generalize hbe : buffer.bodyEnd.getD buffer.window.length = bodyEnd at hb hp ⊢
  generalize hpe : buffer.previewEnd.getD bodyEnd = previewEnd at hp ⊢
  simp only [woven, hbe, hpe]
  split
  · rename_i hlt
    have hcut := take_insertAt (Nat.le_of_lt hlt) hb trailer
    refine ⟨_, _, rfl, ?_, ?_⟩
    · intro β f hf
      rw [← List.filterMap_append, List.take_append_drop, filterMap_insertAt f hf]
    · intro piece hpiece
      rw [hcut.2] at hpiece
      obtain hpiece | hpiece := List.mem_append.mp hpiece
      · obtain hpiece | hpiece := List.mem_append.mp hpiece
        · rw [List.drop_take] at hpiece
          exact Or.inr (List.mem_of_mem_take hpiece)
        · exact Or.inl hpiece
      · have hdrop : buffer.window.drop bodyEnd =
            (buffer.window.drop previewEnd).drop (bodyEnd - previewEnd) := by
          rw [List.drop_drop, Nat.add_sub_cancel' (Nat.le_of_lt hlt)]
        rw [hdrop] at hpiece
        exact Or.inr (List.mem_of_mem_drop hpiece)
  · rename_i hle
    have hcut := take_insertAt (Nat.le_of_not_lt hle) hp scripts
    refine ⟨buffer.window.take bodyEnd ++ trailer ++ (buffer.window.take previewEnd).drop bodyEnd,
      buffer.window.drop previewEnd, ?_, ?_, fun piece hpiece => Or.inr hpiece⟩
    · rw [insertAt, hcut.1, hcut.2]
      simp
    · intro β f hf
      have htake : buffer.window.take bodyEnd ++ (buffer.window.take previewEnd).drop bodyEnd =
          buffer.window.take previewEnd := by
        have hsplit := List.take_append_drop bodyEnd (buffer.window.take previewEnd)
        rwa [List.take_take, Nat.min_eq_left (Nat.le_of_not_lt hle)] at hsplit
      have hfront := congrArg (List.filterMap f) htake
      have hwindow := congrArg (List.filterMap f) (List.take_append_drop previewEnd buffer.window)
      rw [List.filterMap_append] at hfront hwindow
      rw [← hwindow, ← hfront]
      simp [hf]

end Buffer
end ImagePreview

import ImagePreview.Proofs.Scripts.Cue

/-!
What a document keeps in line with the windows that it has closed: the ledger of urls that have been
registered, the scripts written so far, and which of them are due at the end of the open window.
-/
namespace ImagePreview

open Markup

def Document.entries (doc : Document) : List Registration :=
  Cue.entries (cues doc.buffer.closed) ++ doc.ledger.pending

/-- What has been registered is in a script of a closed window, which reads as `closed`, or pending
for the open one, whose images are `late`. -/
structure Accounted (mode : Mode) (closed : List Cue) (late : List Text) (ledger : Ledger) :
    Prop where
  registered : ledger.registered = Cue.registered closed ++ ledger.pending.map Registration.url
  nodup : ledger.registered.Nodup
  pending : ∀ entry ∈ ledger.pending, entry.url ∈ late
  shown : mode = .scripted → ∀ url ∈ late, url ∈ ledger.registered
  images : mode = .scripted → ∀ url, url ∈ Cue.images closed ↔ url ∈ Cue.registered closed
  inline : mode = .inline → ledger.registered = []

namespace Accounted

variable {mode : Mode} {closed : List Cue} {late : List Text} {ledger : Ledger}

/-- What is pending are the urls of the open window that no closed one has registered. -/
theorem pending_iff (h : Accounted .scripted closed late ledger) (url : Text) :
    url ∈ ledger.pending.map Registration.url ↔ url ∈ late ∧ url ∉ Cue.registered closed := by
  have hnodup := h.nodup
  rw [h.registered] at hnodup
  constructor
  · intro hmem
    obtain ⟨entry, hentry, rfl⟩ := List.mem_map.mp hmem
    refine ⟨h.pending entry hentry, fun hclosed => ?_⟩
    exact (List.nodup_append.mp hnodup).2.2 _ hclosed _ hmem rfl
  · rintro ⟨hlate, hnew⟩
    have hmem := h.shown rfl url hlate
    rw [h.registered] at hmem
    exact (List.mem_append.mp hmem).resolve_left hnew

theorem isEmpty_entries (h : Accounted .scripted closed late ledger) :
    (Cue.entries closed).isEmpty = (Cue.images closed).isEmpty := by
  have himages := h.images rfl
  cases he : Cue.entries closed with
  | nil =>
    have hnone : Cue.images closed = [] :=
      List.eq_nil_iff_forall_not_mem.mpr fun url hurl => by
        have hmem := (himages url).mp hurl
        simp [Cue.registered, he] at hmem
    rw [hnone]
    rfl
  | cons entry rest =>
    have hmem : entry.url ∈ Cue.images closed := (himages _).mpr (by simp [Cue.registered, he])
    rw [List.isEmpty_eq_false_iff_exists_mem.mpr ⟨_, hmem⟩]
    rfl

theorem push (h : Accounted mode closed late ledger) {next : Ledger}
    (hr : next.registered = ledger.registered) (hp : next.pending = ledger.pending)
    {more : List Text} (hm : mode = .scripted → more = []) :
    Accounted mode closed (late ++ more) next := by
  refine ⟨by rw [hr, hp]; exact h.registered, by rw [hr]; exact h.nodup, ?_, ?_, h.images,
    fun hi => by rw [hr]; exact h.inline hi⟩
  · intro entry hentry
    rw [hp] at hentry
    exact List.mem_append_left _ (h.pending entry hentry)
  · intro hs url hurl
    rw [hm hs, List.append_nil] at hurl
    rw [hr]
    exact h.shown hs url hurl

theorem register (h : Accounted .scripted closed late ledger) (url : Text) (preview : Preview) :
    Accounted .scripted closed (late ++ [url]) (ledger.register url preview) := by
  by_cases hknown : url ∈ ledger.registered
  · rw [Ledger.register_of_registered hknown]
    refine ⟨h.registered, h.nodup, ?_, ?_, h.images, h.inline⟩
    · exact fun entry hentry => List.mem_append_left _ (h.pending entry hentry)
    · intro hs other hother
      obtain hother | hother := List.mem_append.mp hother
      · exact h.shown hs other hother
      · rwa [List.mem_singleton.mp hother]
  · rw [Ledger.register_of_new hknown]
    refine ⟨?_, ?_, ?_, ?_, h.images, fun hi => by contradiction⟩
    · simp [h.registered]
    · refine List.nodup_append.mpr ⟨h.nodup, by simp, ?_⟩
      intro a ha b hb hab
      rw [hab, List.mem_singleton.mp hb] at ha
      exact hknown ha
    · intro entry hentry
      obtain hentry | hentry := List.mem_append.mp hentry
      · exact List.mem_append_left _ (h.pending entry hentry)
      · simp [List.mem_singleton.mp hentry]
    · intro hs other hother
      obtain hother | hother := List.mem_append.mp hother
      · exact List.mem_append_left _ (h.shown hs other hother)
      · exact List.mem_append_right _ hother

/-- At the end of a window, a script for all that is pending settles the account. -/
theorem settle (h : Accounted mode closed late ledger) {written : List Cue}
    (hi : Cue.images written = []) (he : Cue.entries written = ledger.pending) :
    Accounted mode (closed ++ late.map .image ++ written) [] ledger.settle := by
  have hreg : Cue.registered (closed ++ late.map .image ++ written) = ledger.registered := by
    rw [h.registered, Cue.registered_append, Cue.registered_append]
    simp [Cue.registered, he]
  refine ⟨?_, h.nodup, fun entry hentry => absurd hentry List.not_mem_nil,
    fun _ url hurl => absurd hurl List.not_mem_nil, ?_, h.inline⟩
  · rw [hreg]
    exact (List.append_nil _).symm
  · intro hs url
    rw [hreg, Cue.images_append, Cue.images_append, hi, Cue.images_map, List.append_nil,
      List.mem_append, h.images hs url]
    constructor
    · rintro (hclosed | hlate)
      · rw [h.registered]
        exact List.mem_append_left _ hclosed
      · exact h.shown hs url hlate
    · intro hmem
      rw [h.registered] at hmem
      obtain hmem | hmem := List.mem_append.mp hmem
      · exact Or.inl hmem
      · obtain ⟨entry, hentry, rfl⟩ := List.mem_map.mp hmem
        exact Or.inr (h.pending entry hentry)

end Accounted

/-- The library stands first among scripts, if there are any, and registrations after it. -/
def InOrder (body : List Cue) : Prop :=
  Cue.scripts body =
    if (Cue.entries body).isEmpty then [] else .library :: (Cue.batches body).map .registrations

def scriptsFor (first : Bool) (pending : List Registration) : List Cue :=
  if pending.isEmpty then [] else (if first then [.library] else []) ++ [.registrations pending]

theorem images_scriptsFor (first : Bool) (pending : List Registration) :
    Cue.images (scriptsFor first pending) = [] := by
  rw [scriptsFor]
  cases pending <;> cases first <;> rfl

theorem batches_scriptsFor (first : Bool) (pending : List Registration) :
    Cue.batches (scriptsFor first pending) = if pending.isEmpty then [] else [pending] := by
  rw [scriptsFor]
  cases pending <;> cases first <;> rfl

theorem entries_scriptsFor (first : Bool) (pending : List Registration) :
    Cue.entries (scriptsFor first pending) = pending := by
  rw [Cue.entries, batches_scriptsFor]
  cases pending <;> simp

theorem InOrder.append {body : List Cue} (h : InOrder body) (late : List Text)
    (pending : List Registration) :
    InOrder (body ++ late.map .image ++ scriptsFor (Cue.entries body).isEmpty pending) := by
  rw [InOrder] at h ⊢
  cases pending with
  | nil => simpa [scriptsFor] using h
  | cons entry rest =>
    have hscripts (first : Bool) : Cue.scripts (scriptsFor first (entry :: rest)) =
        (if first then [.library] else []) ++ [.registrations (entry :: rest)] := by
      cases first <;> rfl
    simp only [Cue.scripts_append, Cue.scripts_map, Cue.entries_append, Cue.entries_map,
      Cue.batches_append, Cue.batches_map, entries_scriptsFor, batches_scriptsFor, hscripts, h]
    cases he : (Cue.entries body).isEmpty with
    | false => simp
    | true =>
      have hb : Cue.batches body = [] := by
        rw [he, if_pos rfl] at h
        rw [← Cue.batches_scripts, h]
        rfl
      simp [hb]

def activationFor (due : Bool) (policy : Policy) : List Cue :=
  if due then [.activation policy.lazyFullImages] else []

theorem images_activationFor (due : Bool) (policy : Policy) :
    Cue.images (activationFor due policy) = [] := by cases due <;> rfl

theorem batches_activationFor (due : Bool) (policy : Policy) :
    Cue.batches (activationFor due policy) = [] := by cases due <;> rfl

theorem scripts_activationFor (due : Bool) (policy : Policy) :
    Cue.scripts (activationFor due policy) = activationFor due policy := by cases due <;> rfl

theorem entries_activationFor (due : Bool) (policy : Policy) :
    Cue.entries (activationFor due policy) = [] := by cases due <;> rfl

structure Ordered (doc : Document) : Prop where
  library : doc.written.previewLibrary = !(Cue.entries (cues doc.buffer.closed)).isEmpty
  registrations : doc.written.registrations = !(Cue.entries (cues doc.buffer.closed)).isEmpty
  activation : doc.finished = false → doc.written.activation = false
  order : ∃ body, InOrder body ∧ cues doc.buffer.closed = body ++
    activationFor (doc.finished && !(Cue.entries body).isEmpty) doc.policy

namespace Moment

variable (source : Source) {m : Moment}

theorem closed_of_token (ha : m.document.isActive = true) {t : Token} (ht : m.event = .token t) :
    (m.next source).buffer.closed = m.document.buffer.closed := by
  rw [next_of_token ha ht]
  rfl

theorem closed_of_closes (ha : m.document.isActive = true) (hc : m.event.closes = true) :
    (m.next source).buffer.closed = m.document.buffer.closed ++ m.handed source := by
  rw [handed_of_closes ha hc, next_of_closes ha hc]
  simp [Buffer.close]

end Moment

theorem Ordered.scripts {doc : Document} (h : Ordered doc) (hf : doc.finished = false)
    (finishing : Bool) :
    (doc.scripts finishing).filterMap Block.cue? =
      scriptsFor (Cue.entries (cues doc.buffer.closed)).isEmpty doc.ledger.pending ++
        activationFor (finishing && !(Cue.entries (cues doc.buffer.closed) ++
          doc.ledger.pending).isEmpty) doc.policy := by
  have hl := h.library
  have hr := h.registrations
  cases hp : doc.ledger.pending <;> cases he : Cue.entries (cues doc.buffer.closed) <;>
    cases finishing <;>
    simp [Document.scripts, Document.isRegistered, Document.isDue, scriptsFor, activationFor, hp,
      he, hl, hr, h.activation hf, Block.cue?]

/-- A document with the windows that its course has closed, and with its ledger and scripts in line
with them. -/
structure Kept (source : Source) (windows : Windows) (doc : Document) : Prop where
  closed : doc.buffer.closed = Windows.output windows.closed
  opened : Opened source windows.late doc.buffer
  ended : doc.finished = true → windows.late = []
  images : Cue.images (cues doc.buffer.closed) =
    shown source (windows.closed.flatMap Window.moments)
  accounted :
    Accounted doc.policy.mode (cues doc.buffer.closed) (shown source windows.late) doc.ledger
  ordered : Ordered doc

namespace Kept

variable {source : Source} {ms : List Moment} {m : Moment}

theorem start {doc : Document} (hfresh : doc.Fresh) : Kept source {} doc := by
  have hbuffer := hfresh.buffer
  refine ⟨by rw [hbuffer]; rfl, by rw [hbuffer]; exact Opened.nil [], fun _ => rfl,
    by rw [hbuffer]; rfl, ?_, ?_⟩
  · rw [hbuffer, hfresh.ledger]
    refine ⟨rfl, List.nodup_nil, ?_, ?_, fun _ _ => Iff.rfl, fun _ => rfl⟩
    · exact fun entry hentry => absurd hentry List.not_mem_nil
    · exact fun _ url hurl => absurd hurl List.not_mem_nil
  · refine ⟨?_, ?_, fun _ => ?_, [], rfl, ?_⟩
    · rw [hbuffer, hfresh.written]
      rfl
    · rw [hbuffer, hfresh.written]
      rfl
    · rw [hfresh.written]
    · rw [hbuffer, hfresh.finished]
      rfl

theorem accounted_token (h : Kept source (Windows.ofMoments source ms) m.document) :
    Accounted m.document.policy.mode (cues m.document.buffer.closed)
      (shown source (Windows.ofMoments source ms).late ++ (m.shown? source).toList)
      (m.document.ledgerAfter source m.asked m.event) := by
  obtain ⟨hnone, hregistered, hpending⟩ | ⟨url, preview, ht, hs, hregistered, hpending⟩ :=
    m.document.ledgerAfter_cases source m.asked m.event
  · refine h.accounted.push hregistered hpending fun hs => ?_
    rw [hs] at hnone
    rw [shown?_of_not_shows (hnone.resolve_right (by simp))]
    rfl
  · have hshown : m.shown? source = some url := by
      rw [Moment.shown?, Moment.treatment, ht]
      rfl
    have haccounted := h.accounted
    rw [hs] at haccounted ⊢
    rw [hshown]
    simpa using (haccounted.register url preview).push hregistered hpending fun _ => rfl

theorem token (h : Kept source (Windows.ofMoments source ms) m.document)
    (ha : m.document.isActive = true) (hf : m.document.finished = false) {t : Token}
    (ht : m.event = .token t) :
    Kept source (Windows.ofMoments source (ms ++ [m])) (m.next source) := by
  have hopened := h.opened.push ha ht
  have hclosed := Moment.closed_of_token source ha ht
  have haccounted := h.accounted_token
  have hordered := h.ordered
  rw [Windows.ofMoments_token ht]
  refine ⟨by rw [hclosed]; exact h.closed, hopened, ?_, by rw [hclosed]; exact h.images, ?_, ?_⟩
  · rw [Moment.finished_next ha, hf, ht]
    simp
  · rw [shown_append, shown_singleton, hclosed, Moment.next_of_token ha ht]
    exact haccounted
  · rw [Moment.next_of_token ha ht]
    exact ⟨hordered.library, hordered.registrations, hordered.activation, hordered.order⟩

theorem cues_closed (h : Kept source (Windows.ofMoments source ms) m.document)
    (ha : m.document.isActive = true) (hf : m.document.finished = false)
    (hc : m.event.closes = true) :
    cues (m.handed source) =
      (shown source (Windows.ofMoments source ms).late).map .image ++
        (scriptsFor (Cue.entries (cues m.document.buffer.closed)).isEmpty
            m.document.ledger.pending ++
          activationFor (decide (m.event = .finish) &&
            !(Cue.entries (cues m.document.buffer.closed) ++ m.document.ledger.pending).isEmpty)
            m.document.policy) := by
  rw [cues_handed ha hc h.opened, h.ordered.scripts hf]

theorem cues_next (h : Kept source (Windows.ofMoments source ms) m.document)
    (ha : m.document.isActive = true) (hf : m.document.finished = false)
    (hc : m.event.closes = true) :
    cues (m.next source).buffer.closed = cues m.document.buffer.closed ++
      ((shown source (Windows.ofMoments source ms).late).map .image ++
        (scriptsFor (Cue.entries (cues m.document.buffer.closed)).isEmpty
            m.document.ledger.pending ++
          activationFor (decide (m.event = .finish) &&
            !(Cue.entries (cues m.document.buffer.closed) ++ m.document.ledger.pending).isEmpty)
            m.document.policy)) := by
  rw [Moment.closed_of_closes source ha hc, cues_append, h.cues_closed ha hf hc]

theorem entries_close (h : Kept source (Windows.ofMoments source ms) m.document)
    (ha : m.document.isActive = true) (hf : m.document.finished = false)
    (hc : m.event.closes = true) :
    Cue.entries (cues (m.next source).buffer.closed) =
      Cue.entries (cues m.document.buffer.closed) ++ m.document.ledger.pending := by
  rw [h.cues_next ha hf hc]
  simp [entries_scriptsFor, entries_activationFor]

theorem order_close (h : Kept source (Windows.ofMoments source ms) m.document)
    (ha : m.document.isActive = true) (hf : m.document.finished = false)
    (hc : m.event.closes = true) :
    ∃ body, InOrder body ∧ cues (m.next source).buffer.closed = body ++
      activationFor ((m.next source).finished && !(Cue.entries body).isEmpty)
        (m.next source).policy := by
  obtain ⟨body, hbody, hread⟩ := h.ordered.order
  have hcues := h.cues_next ha hf hc
  rw [hf, Bool.false_and, activationFor, if_neg Bool.false_ne_true, List.append_nil] at hread
  rw [hread] at hcues
  have hfinish : (m.next source).finished = _ := Moment.finished_next ha
  rw [hf, Bool.false_or] at hfinish
  have hpolicy : (m.next source).policy = m.document.policy := by
    rw [Moment.next_of_closes ha hc]
  refine ⟨_, hbody.append (shown source (Windows.ofMoments source ms).late)
    m.document.ledger.pending, ?_⟩
  rw [hcues, hfinish, hpolicy]
  simp [entries_scriptsFor]

theorem ordered_close (h : Kept source (Windows.ofMoments source ms) m.document)
    (ha : m.document.isActive = true) (hf : m.document.finished = false)
    (hc : m.event.closes = true) : Ordered (m.next source) := by
  have hentries := h.entries_close ha hf hc
  have hany (a b : List Registration) : (!(a ++ b).isEmpty) = (!b.isEmpty || !a.isEmpty) := by
    cases a <;> simp
  have hordered := h.ordered
  refine ⟨?_, ?_, ?_, h.order_close ha hf hc⟩
  · rw [hentries, Moment.next_of_closes ha hc]
    simp only [Document.writtenAtClose, Document.isDue, hordered.library, hany]
  · rw [hentries, Moment.next_of_closes ha hc]
    simp only [Document.writtenAtClose, Document.isRegistered, Document.isDue,
      hordered.registrations, hany]
  · rw [Moment.finished_next ha, hf, Moment.next_of_closes ha hc]
    intro hfinish
    rw [Bool.false_or] at hfinish
    simp [Document.writtenAtClose, hordered.activation hf, hfinish]

theorem close (h : Kept source (Windows.ofMoments source ms) m.document)
    (ha : m.document.isActive = true) (hf : m.document.finished = false)
    (hc : m.event.closes = true) :
    Kept source (Windows.ofMoments source (ms ++ [m])) (m.next source) := by
  have hclosed := Moment.closed_of_closes source ha hc
  have hcues := h.cues_next ha hf hc
  rw [Windows.ofMoments_closes hc]
  refine ⟨?_, Opened.close ha hc, fun _ => rfl, ?_, ?_, h.ordered_close ha hf hc⟩
  · rw [hclosed, h.closed]
    simp
  · rw [hcues]
    simp [h.images, images_scriptsFor, images_activationFor, shown?_of_closes hc]
  · rw [hcues, ← List.append_assoc, Moment.next_of_closes ha hc]
    refine h.accounted.settle ?_ ?_
    · simp [images_scriptsFor, images_activationFor]
    · simp [entries_scriptsFor, entries_activationFor]

theorem next (h : Kept source (Windows.ofMoments source ms) m.document)
    (ha : m.document.isActive = true) (hf : m.document.finished = false) :
    Kept source (Windows.ofMoments source (ms ++ [m])) (m.next source) := by
  obtain ⟨t, ht⟩ | hc := m.event.token_or_closes
  · exact h.token ha hf ht
  · exact h.close ha hf hc

end Kept

end ImagePreview

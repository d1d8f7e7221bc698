import ImagePreview.Proofs.Document.Insertion
import ImagePreview.Proofs.Scripts.Order

/-!
Where closing blocks stand in the output of a whole document: directly behind an image with a
preview, before the last `</body>` of the last window, or at the end.
-/
namespace ImagePreview

variable {source : Source}

def BehindPreviews (source : Source) (put : List (List Block × Moment)) : Prop :=
  ∀ p x q, put = p ++ x :: q → x.1 ≠ [] → LastShows source (p.map Prod.snd)

theorem BehindPreviews.append {a b : List (List Block × Moment)} (ha : BehindPreviews source a)
    (hb : BehindPreviews source b) : BehindPreviews source (a ++ b) := by
  intro p x q hsplit hx
  obtain ⟨c, rfl, hrest⟩ | ⟨c, hput, -⟩ := split_append hsplit
  · rw [List.map_append]
    exact (hb c x q hrest hx).append_left _
  · exact ha p x c hput hx

/-- Without a trailer, and with scripts only for images of the window, nothing stands elsewhere. -/
theorem Closing.behindPreviews {scripts : List Block} {put : List (List Block × Moment)}
    (h : Closing source [] scripts put)
    (hshows : scripts ≠ [] → ∃ y ∈ put.map Prod.snd, y.shows source = true) :
    BehindPreviews source put := by
  intro p x q hsplit hx
  obtain hlast | ⟨-, hdue⟩ := h.places hsplit hx
  · exact hlast
  · obtain htrailer | ⟨hscripts, hnone⟩ := hdue
    · exact absurd rfl htrailer
    · obtain ⟨y, hy, hy'⟩ := hshows hscripts
      rw [hnone y hy] at hy'
      contradiction

theorem Kept.exists_closing {ms : List Moment} {m : Moment}
    (h : Kept source (Windows.ofMoments source ms) m.document)
    (ha : m.document.isActive = true) (hc : m.event.closes = true) :
    ∃ put, put.map Prod.snd = (Windows.ofMoments source ms).late ++ [m] ∧
      m.handed source = laid source put ∧
      Closing source (m.document.trailer (m.event = .finish))
        (m.document.scripts (m.event = .finish)) put := by
  obtain ⟨put, hput, hlaid, hclosing⟩ := h.opened.exists_closing hc
    (m.document.trailer (m.event = .finish)) (m.document.scripts (m.event = .finish))
  rw [Moment.pieces, Document.pieces_closes hc] at hlaid
  exact ⟨put, hput, by rw [Moment.handed_of_closes ha hc, hlaid], hclosing⟩

theorem Kept.pending_eq_nil {windows : Windows} {doc : Document} (h : Kept source windows doc)
    (hnone : shown source windows.late = []) : doc.ledger.pending = [] := by
  refine List.eq_nil_iff_forall_not_mem.mpr fun entry hentry => ?_
  have hmem := h.accounted.pending entry hentry
  rw [hnone] at hmem
  exact List.not_mem_nil hmem

/-- Before the end of a document there are scripts only for images of the open window. -/
theorem Kept.exists_shows {windows : Windows} {doc : Document} (h : Kept source windows doc)
    (hs : doc.scripts false ≠ []) : ∃ y ∈ windows.late, y.shows source = true := by
  by_contra hnone
  have hlate : shown source windows.late = [] :=
    shown_eq_nil_iff.mpr fun y hy => by
      simpa using fun hshows => hnone ⟨y, hy, hshows⟩
  simp [Document.scripts, Document.isDue, h.pending_eq_nil hlate] at hs

theorem Kept.scripts_iff {windows : Windows} {doc : Document} (h : Kept source windows doc)
    (hf : doc.finished = false) (hnone : shown source windows.late = []) :
    doc.scripts true ≠ [] ↔ doc.policy.mode = .scripted ∧
      shown source (windows.closed.flatMap Window.moments) ≠ [] := by
  have hpending := h.pending_eq_nil hnone
  have haccounted := h.accounted
  have hscripts : doc.scripts true ≠ [] ↔ Cue.entries (cues doc.buffer.closed) ≠ [] := by
    have hregistrations := h.ordered.registrations
    cases he : Cue.entries (cues doc.buffer.closed) <;>
      simp [Document.scripts, Document.isRegistered, Document.isDue, hpending, hregistrations, he,
        h.ordered.activation hf]
  rw [hscripts, ← h.images]
  cases hs : doc.policy.mode with
  | scripted =>
    rw [hs] at haccounted
    have hempty := haccounted.isEmpty_entries
    simp only [ne_eq, true_and, ← List.isEmpty_iff, hempty]
  | inline =>
    have hregistered := haccounted.registered
    rw [haccounted.inline hs, hpending] at hregistered
    have hentries : Cue.entries (cues doc.buffer.closed) = [] := by
      simpa [Cue.registered] using hregistered
    simp [hentries]

def LaidBehindPreviews (source : Source) (ms : List Moment) (doc : Document) : Prop :=
  ∃ put, put.map Prod.snd = (Windows.ofMoments source ms).closed.flatMap Window.moments ∧
    doc.buffer.closed = laid source put ∧ BehindPreviews source put

theorem LaidBehindPreviews.next {ms : List Moment} {m : Moment}
    (h : LaidBehindPreviews source ms m.document)
    (hkept : Kept source (Windows.ofMoments source ms) m.document)
    (ha : m.document.isActive = true) (hf : (m.next source).finished = false) :
    LaidBehindPreviews source (ms ++ [m]) (m.next source) := by
  obtain ⟨put, hput, hclosed, hbehind⟩ := h
  obtain ⟨t, ht⟩ | hc := m.event.token_or_closes
  · refine ⟨put, by rw [Windows.ofMoments_token ht, hput], ?_, hbehind⟩
    rw [Moment.closed_of_token source ha ht, hclosed]
  · have hflush := Moment.flush_of_closes ha hc hf
    obtain ⟨more, hmore, hlaid, hclosing⟩ := hkept.exists_closing ha hc
    rw [hflush] at hclosing
    have hshows : m.document.scripts false ≠ [] →
        ∃ y ∈ more.map Prod.snd, y.shows source = true := by
      intro hs
      obtain ⟨y, hy, hshows⟩ := hkept.exists_shows hs
      exact ⟨y, by simp [hmore, hy], hshows⟩
    refine ⟨put ++ more, ?_, ?_, hbehind.append (hclosing.behindPreviews hshows)⟩
    · rw [Windows.ofMoments_closes hc]
      simp [hput, hmore]
    · rw [Moment.closed_of_closes source ha hc, hclosed, hlaid, laid_append]

/-- Until a document ends, closing blocks stand nowhere but behind images with a preview. -/
theorem Document.behindPreviews_course (source : Source) {doc : Document} (hfresh : doc.Fresh)
    (ha : doc.isActive = true) (asked : List Lookup) (events : List Event) :
    ((doc.run source asked events).document.finished = false →
        LaidBehindPreviews source (doc.moments source asked events)
          (doc.run source asked events).document) ∧
      ∀ earlier m later, doc.moments source asked events = earlier ++ m :: later →
        LaidBehindPreviews source earlier m.document := by
  let P := fun ms d => (doc.Stays d ∧ Kept source (Windows.ofMoments source ms) d) ∧
    (d.finished = false → LaidBehindPreviews source ms d)
  have hstep : ∀ ms m, P ms m.document → m.document.finished = false →
      P (ms ++ [m]) (m.next source) := by
    intro ms m ⟨⟨hstays, hkept⟩, hlaid⟩ hf
    exact ⟨⟨hstays.next, hkept.next hstays.active hf⟩,
      fun hnext => (hlaid hf).next hkept hstays.active hnext⟩
  have hstart : P [] doc := by
    refine ⟨⟨⟨ha, rfl, rfl⟩, Kept.start hfresh⟩, fun _ => ⟨[], rfl, ?_, ?_⟩⟩
    · rw [hfresh.buffer]
      rfl
    · intro p x q hsplit
      simp at hsplit
  refine ⟨(course_induction hstep asked events hstart).2, fun earlier m later hm => ?_⟩
  obtain ⟨⟨-, hlaid⟩, hf⟩ := course_at hstep asked events hstart hm
  exact hlaid hf

def AllFlushed (source : Source) (ms : List Moment) : Prop :=
  ∀ a y b, ms = a ++ y :: b → y.shows source = true → ∃ z ∈ b, z.event = .flush

theorem allFlushed_iff {front part : List Moment} (hfront : ∀ z ∈ front.getLast?, z.event = .flush)
    (hpart : ∀ y ∈ part, y.event ≠ .flush) :
    AllFlushed source (front ++ part) ↔ ∀ y ∈ part, y.shows source = false := by
  constructor
  · intro h y hy
    obtain ⟨a, b, rfl⟩ := List.append_of_mem hy
    by_contra hshows
    obtain ⟨z, hz, hflush⟩ := h (front ++ a) y b (by simp) (by simpa using hshows)
    exact hpart z (by simp [hz]) hflush
  · intro h a y b hsplit hshows
    obtain ⟨c, rfl, hrest⟩ | ⟨c, rfl, rfl⟩ := split_append hsplit
    · rw [h y (by simp [hrest])] at hshows
      contradiction
    · obtain rfl | ⟨c, z, rfl⟩ := List.eq_nil_or_concat c
      · have hflush := hfront y (by simp)
        rw [Moment.shows_of_closes (by rw [hflush]; rfl)] at hshows
        contradiction
      · exact ⟨z, by simp, hfront z (by simp [List.getLast?_cons])⟩

/-- A document has blocks for the place where its body ends: the call for images that load when they
come into view, and the script for the full images, if none with a preview is in its last window. -/
def Owes (source : Source) (mode : Mode) (ms : List Moment) : Prop :=
  (∃ y ∈ ms, y.defers source = true) ∨
    mode = .scripted ∧ (∃ y ∈ ms, y.shows source = true) ∧ AllFlushed source ms

structure TakesBlocks (source : Source) (mode : Mode) (earlier : List Moment) (x : Moment)
    (later : List Moment) : Prop where
  isBodyEnd : x.isBodyEnd = true
  /-- It is the last one of the last window. -/
  last : ∀ y ∈ later, y.isBodyEnd = false ∧ y.event ≠ .flush
  ended : ∃ y ∈ later, y.event = .finish
  owes : Owes source mode (earlier ++ x :: later)

/-- But for those at its very end, the closing blocks of a document stand behind an image with a
preview, or where it ends the body. -/
def Placed (source : Source) (mode : Mode) (put : List (List Block × Moment)) : Prop :=
  ∀ p x q, put = p ++ x :: q → x.2.event ≠ .finish →
    (x.1 ≠ [] → LastShows source (p.map Prod.snd) ∨
      TakesBlocks source mode (p.map Prod.snd) x.2 (q.map Prod.snd)) ∧
    (TakesBlocks source mode (p.map Prod.snd) x.2 (q.map Prod.snd) → x.1 ≠ [])

/-- A window before the last one takes no blocks: it is flushed behind its `</body>`. -/
theorem not_takesBlocks {mode : Mode} {earlier between later : List Moment} {x : Moment}
    (hflush : ∀ z ∈ (x :: between).getLast?, z.event = .flush) :
    ¬ TakesBlocks source mode earlier x (between ++ later) := by
  intro htakes
  obtain rfl | ⟨between, z, rfl⟩ := List.eq_nil_or_concat between
  · have hbody := htakes.isBodyEnd
    rw [Moment.isBodyEnd_of_closes (by rw [hflush x rfl]; rfl)] at hbody
    contradiction
  · have hz := hflush z (by simp [List.getLast?_cons])
    exact absurd hz (htakes.last z (by simp)).2

theorem trailer_iff {ms : List Moment} {m : Moment} (hm : m.event = .finish)
    (hwritten : m.document.written.lazyLibrary = ms.any (Moment.defers source)) :
    m.document.trailer true ≠ [] ↔ ∃ y ∈ ms ++ [m], y.defers source = true := by
  have hdefers : m.defers source = false := Moment.defers_of_closes (by rw [hm]; rfl)
  rw [← List.any_eq_true, List.any_append, ← hwritten]
  cases hw : m.document.written.lazyLibrary <;> simp [Document.trailer, hw, hdefers]

theorem Kept.due_iff {ms : List Moment} {m : Moment}
    (h : Kept source (Windows.ofMoments source ms) m.document)
    (hf : m.document.finished = false) (hm : m.event = .finish)
    (hwritten : m.document.written.lazyLibrary = ms.any (Moment.defers source))
    (hfront : ∀ x ∈ ms, x.event ≠ .finish) :
    Closing.Due source (m.document.trailer true) (m.document.scripts true)
        ((Windows.ofMoments source ms).late ++ [m]) ↔
      Owes source m.document.policy.mode (ms ++ [m]) := by
  have hscripts := h.scripts_iff hf
  have hlate := Windows.closes_late source ms
  have hsplit := Windows.flatMap_moments source ms
  have hflush := Windows.flush_closed source hfront
  generalize (Windows.ofMoments source ms).late = late at hlate hsplit hscripts ⊢
  generalize (Windows.ofMoments source ms).closed.flatMap Window.moments = front
    at hsplit hflush hscripts
  have hpart := Windows.not_flush_last hlate hm
  rw [Closing.Due, Owes, trailer_iff hm hwritten, ← hsplit, List.append_assoc,
    allFlushed_iff hflush hpart]
  refine or_congr_right ?_
  rw [← and_assoc]
  refine and_congr_left fun hnone => ?_
  have hlate : shown source late = [] :=
    shown_eq_nil_iff.mpr fun y hy => hnone y (List.mem_append_left _ hy)
  have hshown : shown source front ≠ [] ↔
      ∃ y ∈ front ++ (late ++ [m]), y.shows source = true := by
    rw [ne_eq, shown_eq_nil_iff]
    simp only [List.mem_append, not_forall, Bool.not_eq_false, exists_prop]
    constructor
    · exact fun ⟨y, hy, hshows⟩ => ⟨y, Or.inl hy, hshows⟩
    · rintro ⟨y, hy | hy, hshows⟩
      · exact ⟨y, hy, hshows⟩
      · rw [hnone y (List.mem_append.mpr hy)] at hshows
        contradiction
  rw [hscripts hlate, hshown]

theorem BehindPreviews.placed {put : List (List Block × Moment)} (h : BehindPreviews source put)
    (hnone : ∀ y ∈ put.map Prod.snd, y.event ≠ .finish) (mode : Mode) :
    Placed source mode put := by
  intro p x q hsplit hx
  refine ⟨fun hblocks => Or.inl (h p x q hsplit hblocks), fun htakes => ?_⟩
  obtain ⟨y, hy, hfinish⟩ := htakes.ended
  exact absurd hfinish (hnone y (by simp [hsplit, hy]))

/-- When a document ends, the blocks of its last window come to those of the windows before. -/
theorem BehindPreviews.placed_append {put more : List (List Block × Moment)} {late : List Moment}
    {m : Moment} {trailer scripts : List Block} {mode : Mode} (h : BehindPreviews source put)
    (hlast : ∀ z ∈ (put.map Prod.snd).getLast?, z.event = .flush)
    (hmore : more.map Prod.snd = late ++ [m]) (hlate : ∀ y ∈ late, y.event.closes = false)
    (hm : m.event = .finish) (hclosing : Closing source trailer scripts more)
    (hdue : Closing.Due source trailer scripts (late ++ [m]) ↔
      Owes source mode (put.map Prod.snd ++ (late ++ [m]))) :
    Placed source mode (put ++ more) := by
  intro p x q hsplit hx
  obtain ⟨c, rfl, hrest⟩ | ⟨c, rfl, rfl⟩ := split_append hsplit
  · have hsplit' : c.map Prod.snd ++ x.2 :: q.map Prod.snd = late ++ [m] := by
      rw [← hmore, hrest]
      simp
    have hall : (put ++ c).map Prod.snd ++ x.2 :: q.map Prod.snd =
        put.map Prod.snd ++ (late ++ [m]) := by
      rw [List.map_append, List.append_assoc, hsplit']
    have hrear : m ∈ q.map Prod.snd := by
      obtain hnil | ⟨rear, z, hq⟩ := List.eq_nil_or_concat (q.map Prod.snd)
      · rw [hnil] at hsplit'
        have hxm := (List.append_singleton_inj.mp hsplit').2
        exact absurd (hxm ▸ hm) hx
      · rw [hq, List.concat_eq_append, ← List.cons_append, ← List.append_assoc] at hsplit'
        have hz := (List.append_singleton_inj.mp hsplit').2
        simp [hq, hz]
    have hflush : ∀ y ∈ q.map Prod.snd, y.event ≠ .flush := fun y hy =>
      Windows.not_flush_last hlate hm y (by simp [← hsplit', hy])
    constructor
    · intro hblocks
      obtain hshows | ⟨hends, hdue'⟩ := hclosing.places hrest hblocks
      · rw [List.map_append]
        exact Or.inl (hshows.append_left _)
      · obtain ⟨hx', hnone⟩ | ⟨hnil, -⟩ := hends
        · refine Or.inr ⟨hx', fun y hy => ⟨hnone y hy, hflush y hy⟩, ⟨m, hrear, hm⟩, ?_⟩
          rw [hall]
          exact hdue.mp (hmore ▸ hdue')
        · simp [hnil] at hrear
    · intro htakes
      refine hclosing.ne_nil hrest htakes.isBodyEnd (fun y hy => (htakes.last y hy).1) ?_
      rw [hmore]
      exact hdue.mpr (hall ▸ htakes.owes)
  · refine ⟨fun hblocks => Or.inl (h p x c rfl hblocks), fun htakes => ?_⟩
    rw [List.map_append] at htakes
    exact absurd htakes (not_takesBlocks fun z hz => hlast z (by simpa using hz))

namespace Document

variable {doc : Document}

theorem placed_finish (hfresh : doc.Fresh) (ha : doc.isActive = true) {asked : List Lookup}
    {events : List Event} {front : List Moment} {m : Moment}
    (hms : doc.moments source asked events = front ++ [m]) (hm : m.event = .finish)
    (hfront : ∀ x ∈ front, x.event ≠ .finish) :
    ∃ put, put.map Prod.snd = front ++ [m] ∧ (m.next source).buffer.closed = laid source put ∧
      Placed source doc.policy.mode put := by
  obtain ⟨put, hput, hclosed, hbehind⟩ :=
    (behindPreviews_course source hfresh ha asked events).2 front m [] hms
  obtain ⟨⟨hstays, hkept⟩, hf⟩ := (kept_course source hfresh ha asked events).2 front m [] hms
  obtain ⟨-, hrecorded⟩ := (arranged_course source hfresh ha asked events).2.2 front m [] hms
  have hc : m.event.closes = true := by rw [hm]; rfl
  obtain ⟨more, hmore, hlaid, hclosing⟩ := hkept.exists_closing hstays.active hc
  have hdue := hkept.due_iff hf hm hrecorded.lazyLibrary hfront
  have hall : (put ++ more).map Prod.snd = front ++ [m] := by
    rw [List.map_append, hput, hmore, ← List.append_assoc, Windows.flatMap_moments]
  refine ⟨put ++ more, hall, ?_, ?_⟩
  · rw [Moment.closed_of_closes source hstays.active hc, hclosed, hlaid, laid_append]
  · rw [hm] at hclosing
    refine hbehind.placed_append ?_ hmore (Windows.closes_late source front) hm hclosing ?_
    · rw [hput]
      exact Windows.flush_closed source hfront
    · rwa [← hmore, ← List.map_append, hall, hmore, ← hstays.policy]

/-- The output of a document, laid out as the moments of its closed windows. -/
theorem exists_placed (source : Source) (hfresh : doc.Fresh) (ha : doc.isActive = true)
    (asked : List Lookup) (events : List Event) :
    ∃ put, put.map Prod.snd <+: doc.moments source asked events ∧
      ((doc.run source asked events).document.finished = true →
        put.map Prod.snd = doc.moments source asked events) ∧
      (doc.run source asked events).document.buffer.closed = laid source put ∧
      Placed source doc.policy.mode put := by
  cases hf : (doc.run source asked events).document.finished with
  | false =>
    obtain ⟨put, hput, hclosed, hbehind⟩ :=
      (behindPreviews_course source hfresh ha asked events).1 hf
    have hms : put.map Prod.snd <+: doc.moments source asked events := by
      rw [hput]
      exact ⟨_, Windows.flatMap_moments source _⟩
    have hnone : ∀ y ∈ doc.moments source asked events, y.event ≠ .finish := by
      rw [(finished_course ha hfresh.finished).1] at hf
      simpa using hf
    exact ⟨put, hms, fun h => absurd h Bool.false_ne_true, hclosed,
      hbehind.placed (fun y hy => hnone y (hms.subset hy)) _⟩
  | true =>
    obtain ⟨front, m, hms, hm, hfront, hlast⟩ := exists_finish ha hfresh.finished hf
    obtain ⟨put, hput, hclosed, hplaced⟩ := placed_finish hfresh ha hms hm hfront
    rw [hms, hlast]
    exact ⟨put, hput ▸ List.prefix_rfl, fun _ => hput, hclosed, hplaced⟩

end Document
end ImagePreview

import ImagePreview.Proofs.Scripts.Placement

/-!
The two scripts for images that load when they come into view: the library, which stands before the
first of these images, and the call that other scripts need, which is put in where the document
ends, before the last `</body>` of its last window. The call stands behind the library, unless that
`</body>` comes before all of the images.
-/
namespace ImagePreview

open Markup

def Block.lazy? : Block → Option Block
  | lazyLibrary => some .lazyLibrary
  | lazyOverride => some .lazyOverride
  | _ => none

def Piece.lazy? : Piece → Option Block
  | block b => b.lazy?
  | _ => none

def lazyBlocks (pieces : List Piece) : List Block := pieces.filterMap Piece.lazy?

@[simp] theorem lazyBlocks_append (a b : List Piece) :
    lazyBlocks (a ++ b) = lazyBlocks a ++ lazyBlocks b := List.filterMap_append

@[simp] theorem lazyBlocks_blocks (blocks : List Block) :
    lazyBlocks (blocks.map .block) = blocks.filterMap Block.lazy? := by
  simp [lazyBlocks, List.filterMap_map, Function.comp_def, Piece.lazy?]

@[simp] theorem lazyBlocks_ofToken (t : Token) : lazyBlocks (Piece.ofToken t) = [] := by
  rw [Piece.ofToken]
  split <;> rfl

variable {source : Source}

theorem lazyBlocks_pieces (m : Moment) :
    lazyBlocks (m.pieces source) =
      if m.defers source && !m.document.written.lazyLibrary then [.lazyLibrary] else [] := by
  have hunit : lazyBlocks (m.unit source) = [] := by
    rw [Moment.unit]
    cases m.event with
    | token t =>
      cases t with
      | startTag tag =>
        simp only [Document.unit]
        cases m.document.treatment source m.asked tag with
        | preview url preview | placeholder => rfl
        | none => exact lazyBlocks_ofToken _
      | endTag tag => exact lazyBlocks_ofToken _
      | text t => exact lazyBlocks_ofToken _
    | flush | finish => rfl
  have hfollow : (m.document.follow m.event).filterMap Block.lazy? = [] := by
    simp only [Document.follow, List.filterMap_append, List.append_eq_nil_iff]
    refine ⟨⟨?_, ?_⟩, ?_⟩ <;> split <;> rfl
  have hlead : (m.document.lead source m.asked m.event).filterMap Block.lazy? =
      if m.defers source && !m.document.written.lazyLibrary then [.lazyLibrary] else [] := by
    rw [Document.lead, Moment.defers, Moment.treatment]
    by_cases ht : m.document.treatmentAt source m.asked m.event = .placeholder <;>
      cases hl : m.document.written.lazyLibrary <;> simp [ht, Block.lazy?]
  rw [Moment.unit] at hunit
  simp only [Moment.pieces, Document.pieces, lazyBlocks_append, lazyBlocks_blocks, hunit, hfollow,
    List.append_nil, hlead]

/-- The library stands in a part of a course if the first image that needs it does. -/
theorem lazyBlocks_piecesOf (front part rear : List Moment)
    (hcourse : ∀ earlier m later, front ++ (part ++ rear) = earlier ++ m :: later →
      m.document.written.lazyLibrary = earlier.any (Moment.defers source)) :
    lazyBlocks (piecesOf source part) =
      if part.any (Moment.defers source) && !front.any (Moment.defers source) then [.lazyLibrary]
      else [] := by
  induction part generalizing front with
  | nil => rfl
  | cons m part ih =>
    have hm := hcourse front m (part ++ rear) rfl
    have hpart := ih (front ++ [m]) fun earlier x later h =>
      hcourse earlier x later (by simpa using h)
    rw [← List.singleton_append, piecesOf_append, piecesOf_singleton, lazyBlocks_append,
      lazyBlocks_pieces, hm, hpart]
    cases hd : m.defers source <;> cases hf : front.any (Moment.defers source) <;> simp [hd, hf]

theorem lazyBlocks_scripts (doc : Document) (finishing : Bool) :
    lazyBlocks ((doc.scripts finishing).map .block) = [] := by
  rw [lazyBlocks_blocks, Document.scripts, List.filterMap_append, List.filterMap_append,
    List.append_eq_nil_iff, List.append_eq_nil_iff]
  refine ⟨⟨?_, ?_⟩, ?_⟩ <;> split <;> rfl

theorem Closing.exists_cut {trailer scripts : List Block} {put : List (List Block × Moment)}
    (h : Closing source trailer scripts put) (hnone : lazyBlocks (scripts.map .block) = []) :
    ∃ a x b, put.map Prod.snd = a ++ x :: b ∧ EndsBody a x b ∧
      lazyBlocks (laid source put) = lazyBlocks (piecesOf source a) ++
        trailer.filterMap Block.lazy? ++ lazyBlocks (piecesOf source (x :: b)) := by
  rw [lazyBlocks_blocks] at hnone
  cases h with
  | @together a x b hends =>
    refine ⟨a, x, b, by simp [map_snd_bare], hends, ?_⟩
    simp only [laid_one, lazyBlocks_append, lazyBlocks_blocks, List.filterMap_append, hnone,
      List.append_nil]
  | @scriptsFirst a w b x c hshows hends =>
    refine ⟨a ++ w :: b, x, c, by simp [map_snd_bare], hends, ?_⟩
    simp only [laid_two, piecesOf_append, lazyBlocks_append, lazyBlocks_blocks, hnone,
      List.nil_append, List.append_assoc]
  | @trailerFirst a x b w c hends hshows =>
    refine ⟨a, x, b ++ w :: c, by simp [map_snd_bare], hends, ?_⟩
    have hsplit : piecesOf source (x :: (b ++ w :: c)) =
        piecesOf source (x :: b) ++ piecesOf source (w :: c) :=
      piecesOf_append source (x :: b) (w :: c)
    simp only [laid_two, hsplit, lazyBlocks_append, lazyBlocks_blocks, hnone, List.append_nil]

/-- Before the end of a document, closing a window puts in none of these scripts. -/
theorem Kept.lazyBlocks_handed {ms : List Moment} {m : Moment}
    (h : Kept source (Windows.ofMoments source ms) m.document) (ha : m.document.isActive = true)
    (hm : m.event = .flush) :
    lazyBlocks (m.handed source) =
      lazyBlocks m.document.buffer.window ++ lazyBlocks (m.pieces source) := by
  have hc : m.event.closes = true := by rw [hm]; rfl
  obtain ⟨put, hput, hlaid, hclosing⟩ := h.exists_closing ha hc
  obtain ⟨a, x, b, hsplit, -, hread⟩ := hclosing.exists_cut (lazyBlocks_scripts _ _)
  have htrailer : m.document.trailer (m.event = .finish) = [] := by
    simp [Document.trailer, hm]
  rw [hlaid, hread, htrailer, List.filterMap_nil, List.append_nil, ← lazyBlocks_append,
    ← piecesOf_append, ← hsplit, hput, piecesOf_append, piecesOf_singleton, lazyBlocks_append,
    h.opened.window]

theorem Kept.lazyBlocks_next {ms : List Moment} {m : Moment}
    (h : Kept source (Windows.ofMoments source ms) m.document) (ha : m.document.isActive = true)
    (hf : (m.next source).finished = false) :
    lazyBlocks (m.next source).buffer.closed ++ lazyBlocks (m.next source).buffer.window =
      lazyBlocks m.document.buffer.closed ++ lazyBlocks m.document.buffer.window ++
        lazyBlocks (m.pieces source) := by
  obtain ⟨t, ht⟩ | hc := m.event.token_or_closes
  · rw [Moment.next_of_token ha ht]
    have hpieces : m.document.pieces source m.asked (.token t) = m.pieces source := by
      rw [Moment.pieces, ht]
    simp only [Document.bufferAfter, hpieces, lazyBlocks_append, List.append_assoc]
  · have hflush := Moment.flush_of_closes ha hc hf
    have hwindow : (m.next source).buffer.window = [] := by
      rw [Moment.next_of_closes ha hc]
      rfl
    rw [Moment.closed_of_closes source ha hc, lazyBlocks_append, h.lazyBlocks_handed ha hflush,
      hwindow, ← List.append_assoc]
    exact List.append_nil _

theorem Document.lazyBlocks_course (source : Source) {doc : Document} (hfresh : doc.Fresh)
    (ha : doc.isActive = true) (asked : List Lookup) (events : List Event)
    {earlier later : List Moment} {m : Moment}
    (hm : doc.moments source asked events = earlier ++ m :: later) :
    lazyBlocks m.document.buffer.closed ++ lazyBlocks m.document.buffer.window =
      lazyBlocks (piecesOf source earlier) := by
  let P := fun ms (d : Document) =>
    (doc.Stays d ∧ Kept source (Windows.ofMoments source ms) d) ∧ (d.finished = false →
      lazyBlocks d.buffer.closed ++ lazyBlocks d.buffer.window = lazyBlocks (piecesOf source ms))
  have hstep : ∀ ms m, P ms m.document → m.document.finished = false →
      P (ms ++ [m]) (m.next source) := by
    intro ms m ⟨⟨hstays, hkept⟩, hread⟩ hf
    refine ⟨⟨hstays.next, hkept.next hstays.active hf⟩, fun hnext => ?_⟩
    rw [piecesOf_append, piecesOf_singleton, lazyBlocks_append, ← hread hf,
      hkept.lazyBlocks_next hstays.active hnext]
  have hstart : P [] doc := by
    refine ⟨⟨⟨ha, rfl, rfl⟩, Kept.start hfresh⟩, fun _ => ?_⟩
    rw [hfresh.buffer]
    rfl
  obtain ⟨⟨-, hread⟩, hf⟩ := course_at hstep asked events hstart hm
  exact hread hf

/-- The last `</body>` of the last window stands before all images that load when they come into
view. -/
def BodyEndsFirst (source : Source) (ms : List Moment) : Prop :=
  ∃ front x rear, ms = front ++ x :: rear ∧ x.isBodyEnd = true ∧
    (∀ y ∈ rear, y.isBodyEnd = false ∧ y.event ≠ .flush) ∧ ∀ y ∈ front, y.defers source = false

def Moment.isEnd (m : Moment) : Bool := m.isBodyEnd || decide (m.event = .flush)

theorem isEnd_of_not {m : Moment} (h : m.isBodyEnd = false ∧ m.event ≠ .flush) :
    m.isEnd = false := by
  simp [Moment.isEnd, h]

theorem bodyEndsFirst_iff {front rear : List Moment} {x : Moment} (hx : x.isBodyEnd = true)
    (hrear : ∀ y ∈ rear, y.isBodyEnd = false ∧ y.event ≠ .flush) :
    BodyEndsFirst source (front ++ x :: rear) ↔ ∀ y ∈ front, y.defers source = false := by
  constructor
  · rintro ⟨a, y, b, h, hy, hb, ha⟩
    obtain ⟨rfl, -⟩ := eq_of_split_last (p := Moment.isEnd) h (by simp [Moment.isEnd, hx])
      (fun z hz => isEnd_of_not (hrear z hz)) (by simp [Moment.isEnd, hy])
      fun z hz => isEnd_of_not (hb z hz)
    exact ha
  · exact fun hfront => ⟨front, x, rear, rfl, hx, hrear, hfront⟩

/-- Without a `</body>` in the last window, there is none in front of the images. -/
theorem not_bodyEndsFirst {front late : List Moment}
    (hfront : ∀ z ∈ front.getLast?, z.event = .flush)
    (hlate : ∀ y ∈ late, y.isBodyEnd = false ∧ y.event ≠ .flush) :
    ¬ BodyEndsFirst source (front ++ late) := by
  rintro ⟨a, x, b, h, hx, hb, -⟩
  obtain rfl | ⟨c, z, rfl⟩ := List.eq_nil_or_concat front
  · rw [List.nil_append] at h
    have hmem : x ∈ late := by simp [h]
    rw [(hlate x hmem).1] at hx
    contradiction
  · have hz : z.event = .flush := hfront z (by simp)
    rw [List.concat_eq_append, List.append_assoc, List.singleton_append] at h
    obtain ⟨-, rfl⟩ := eq_of_split_last (p := Moment.isEnd) h (by simp [Moment.isEnd, hz])
      (fun y hy => isEnd_of_not (hlate y hy)) (by simp [Moment.isEnd, hx])
      fun y hy => isEnd_of_not (hb y hy)
    rw [Moment.isBodyEnd, hz] at hx
    contradiction

theorem bodyEndsFirst_iff_of_endsBody {front late a b : List Moment} {x m : Moment}
    (hfront : ∀ z ∈ front.getLast?, z.event = .flush)
    (hlate : ∀ y ∈ late ++ [m], y.event ≠ .flush) (hm : m.isBodyEnd = false)
    (hcut : late ++ [m] = a ++ x :: b) (hends : EndsBody a x b) :
    BodyEndsFirst source (front ++ (a ++ x :: b)) ↔
      b ≠ [] ∧ ∀ y ∈ front ++ a, y.defers source = false := by
  rw [hcut] at hlate
  -- the last window has a `</body>`, or it ends the body with its last moment
  obtain ⟨hx, hb⟩ | ⟨rfl, hnone⟩ := hends
  · have hrear : ∀ y ∈ b, y.isBodyEnd = false ∧ y.event ≠ .flush := fun y hy =>
      ⟨hb y hy, hlate y (by simp [hy])⟩
    have hne : b ≠ [] := by
      rintro rfl
      rw [← (List.append_singleton_inj.mp hcut).2, hm] at hx
      contradiction
    rw [← List.append_assoc, bodyEndsFirst_iff hx hrear]
    exact ⟨fun h => ⟨hne, h⟩, And.right⟩
  · have hlast : ∀ y ∈ a ++ [x], y.isBodyEnd = false ∧ y.event ≠ .flush := by
      refine fun y hy => ⟨?_, hlate y hy⟩
      rcases List.mem_append.mp hy with hy | hy
      · exact hnone y hy
      · rwa [List.mem_singleton.mp hy, ← (List.append_singleton_inj.mp hcut).2]
    exact ⟨fun h => absurd h (not_bodyEndsFirst hfront hlast), fun h => absurd rfl h.1⟩

/-- A finished document reads as its moments, with the call of the library put in at one of them. -/
theorem Document.exists_lazy_cut {doc : Document} (hfresh : doc.Fresh) (ha : doc.isActive = true)
    {asked : List Lookup} {events : List Event} {front : List Moment} {m : Moment}
    (hms : doc.moments source asked events = front ++ [m]) (hm : m.event = .finish)
    (hfront : ∀ x ∈ front, x.event ≠ .finish) :
    ∃ before x behind, front ++ [m] = before ++ x :: behind ∧
      lazyBlocks (m.next source).buffer.closed = lazyBlocks (piecesOf source before) ++
        (if m.document.written.lazyLibrary then [.lazyOverride] else []) ++
        lazyBlocks (piecesOf source (x :: behind)) ∧
      (BodyEndsFirst source (front ++ [m]) ↔
        behind ≠ [] ∧ ∀ y ∈ before, y.defers source = false) := by
  obtain ⟨⟨hstays, hkept⟩, -⟩ := (kept_course source hfresh ha asked events).2 front m [] hms
  have hc : m.event.closes = true := by rw [hm]; rfl
  have hsplit := Windows.flatMap_moments source front
  have hlate := Windows.closes_late source front
  have hlast := Windows.flush_closed source hfront
  have hread := lazyBlocks_course source hfresh ha asked events hms
  obtain ⟨put, hput, hlaid, hclosing⟩ := hkept.exists_closing hstays.active hc
  obtain ⟨a, x, b, hcut, hends, hhanded⟩ := hclosing.exists_cut (lazyBlocks_scripts _ _)
  rw [hkept.opened.window] at hread
  generalize (Windows.ofMoments source front).late = late at *
  generalize (Windows.ofMoments source front).closed.flatMap Window.moments = closed at *
  have hclosed : lazyBlocks m.document.buffer.closed = lazyBlocks (piecesOf source closed) := by
    rw [← hsplit, piecesOf_append, lazyBlocks_append] at hread
    exact List.append_cancel_right hread
  have hall : front ++ [m] = closed ++ a ++ x :: b := by
    rw [← hsplit, List.append_assoc, ← hput, hcut, List.append_assoc]
  refine ⟨closed ++ a, x, b, hall, ?_, ?_⟩
  · have htrailer : (m.document.trailer (m.event = .finish)).filterMap Block.lazy? =
        if m.document.written.lazyLibrary then [.lazyOverride] else [] := by
      rw [hm]
      cases hw : m.document.written.lazyLibrary <;> simp [Document.trailer, hw, Block.lazy?]
    rw [Moment.closed_of_closes source hstays.active hc, lazyBlocks_append, hlaid, hhanded, hclosed,
      htrailer, piecesOf_append, lazyBlocks_append]
    simp only [List.append_assoc]
  · rw [hall, List.append_assoc]
    exact bodyEndsFirst_iff_of_endsBody hlast (Windows.not_flush_last hlate hm)
      (Moment.isBodyEnd_of_closes hc) (hput.symm.trans hcut) hends

structure LazyScripts (source : Source) (ms : List Moment) (scripts : List Block) : Prop where
  none : (∀ m ∈ ms, m.defers source = false) → scripts = []
  first : (∃ m ∈ ms, m.defers source = true) → ¬ BodyEndsFirst source ms →
    scripts = [.lazyLibrary, .lazyOverride]
  last : (∃ m ∈ ms, m.defers source = true) → BodyEndsFirst source ms →
    scripts = [.lazyOverride, .lazyLibrary]

theorem lazyScripts_of_cut {before behind : List Moment} {x : Moment}
    (hends : BodyEndsFirst source (before ++ x :: behind) ↔
      behind ≠ [] ∧ ∀ y ∈ before, y.defers source = false)
    (hne : (x :: behind).any (Moment.defers source) = true → behind ≠ []) :
    LazyScripts source (before ++ x :: behind)
      ((if before.any (Moment.defers source) then [.lazyLibrary] else []) ++
        (if (before ++ x :: behind).any (Moment.defers source) then [.lazyOverride] else []) ++
        if (x :: behind).any (Moment.defers source) && !before.any (Moment.defers source)
          then [.lazyLibrary] else []) := by
  rw [List.any_append]
  refine ⟨fun hnone => ?_, fun hsome hlate => ?_, fun hsome hfirst => ?_⟩
  · have hclear : (before ++ x :: behind).any (Moment.defers source) = false := by
      simpa only [List.any_eq_false, Bool.not_eq_true] using hnone
    rw [List.any_append] at hclear
    obtain ⟨hb, hx⟩ := Bool.or_eq_false_iff.mp hclear
    rw [hb, hx]
    rfl
  · rw [← List.any_eq_true, List.any_append] at hsome
    cases hb : before.any (Moment.defers source) with
    | true => simp
    | false =>
      rw [hb, Bool.false_or] at hsome
      have hclear : ∀ y ∈ before, y.defers source = false := by simpa using hb
      exact absurd (hends.mpr ⟨hne hsome, hclear⟩) hlate
  · rw [← List.any_eq_true, List.any_append] at hsome
    have hclear : before.any (Moment.defers source) = false := by simpa using (hends.mp hfirst).2
    rw [hclear, Bool.false_or] at hsome
    simp [hclear, hsome]

/-- In a finished document, both scripts stand once if any image needs them, and the call is behind
the library unless the body ends before all of these images. Otherwise neither is there. -/
theorem lazy_scripts_once (classify : Classifier) (settings : Settings) (url client : Text)
    (source : Source) (asked : List Lookup) (events : List Event)
    (ha : (Document.start classify settings url client).isActive = true)
    (hf : ((Document.start classify settings url client).run source asked
      events).document.finished = true) :
    let doc := Document.start classify settings url client
    let last := (doc.run source asked events).document
    (∀ assets, (last.take assets).1 = Piece.render doc.policy assets last.buffer.closed) ∧
      LazyScripts source (doc.moments source asked events) (lazyBlocks last.buffer.closed) := by
  intro doc last
  have hfresh : doc.Fresh := Document.fresh_start ..
  obtain ⟨hstays, -, hcourse⟩ := Document.arranged_course source hfresh ha asked events
  obtain ⟨front, m, hms, hm, hfront, hlast⟩ := Document.exists_finish ha rfl hf
  have hwritten : ∀ earlier x later, front ++ [m] = earlier ++ x :: later →
      x.document.written.lazyLibrary = earlier.any (Moment.defers source) := by
    intro earlier x later h
    exact (hcourse earlier x later (hms.trans h)).2.lazyLibrary
  obtain ⟨before, x, behind, hcut, hread, hends⟩ :=
    Document.exists_lazy_cut hfresh ha hms hm hfront
  have hbefore := lazyBlocks_piecesOf [] before (x :: behind) (by simpa [← hcut] using hwritten)
  have hbehind := lazyBlocks_piecesOf before (x :: behind) [] (by simpa [← hcut] using hwritten)
  have hnot : m.defers source = false := Moment.defers_of_closes (by rw [hm]; rfl)
  have hall : m.document.written.lazyLibrary =
      (before ++ x :: behind).any (Moment.defers source) := by
    rw [hwritten front m [] rfl, ← hcut]
    simp [hnot]
  have hne : (x :: behind).any (Moment.defers source) = true → behind ≠ [] := by
    rintro hsome rfl
    have hxm := (List.append_singleton_inj.mp hcut).2
    simp [← hxm, hnot] at hsome
  rw [hcut] at hends
  rw [hbefore, hbehind, hall, ← hlast] at hread
  refine ⟨fun assets => by rw [Document.take, Buffer.take, hstays.policy], ?_⟩
  rw [hms, hcut, hread]
  simpa using lazyScripts_of_cut hends hne

theorem sample_lazy_scripts_once :
    Sample.document.isActive = true ∧
      (Sample.document.run Sample.source [] (Sample.events ++ [.finish])).document.finished = true ∧
      LazyScripts Sample.source
        (Sample.document.moments Sample.source [] (Sample.events ++ [.finish]))
        (lazyBlocks Sample.output) :=
  ⟨rfl, rfl, (lazy_scripts_once Sample.classify Sample.settings [] [] Sample.source []
    (Sample.events ++ [Event.finish]) rfl rfl).2⟩

def Sample.bodyFirst : List Event :=
  [.token (.startTag { name := "body".toList }), .token (.endTag { name := "body".toList }),
    image "b".toList, .finish]

/-- The call does not always stand behind the library. -/
theorem not_always_behind_library :
    ¬ ∀ (classify : Classifier) (settings : Settings) (url client : Text) (source : Source)
        (asked : List Lookup) (events : List Event),
      let doc := Document.start classify settings url client
      let last := (doc.run source asked events).document
      doc.isActive = true → last.finished = true →
        (∃ m ∈ doc.moments source asked events, m.defers source = true) →
        lazyBlocks last.buffer.closed = [.lazyLibrary, .lazyOverride] := by
  intro h
  have hread :
      lazyBlocks (Sample.document.run Sample.source [] Sample.bodyFirst).document.buffer.closed =
        [.lazyOverride, .lazyLibrary] := rfl
  have hdefers : ∃ m ∈ Sample.document.moments Sample.source [] Sample.bodyFirst,
      m.defers Sample.source = true := by
    rw [← List.any_eq_true]
    rfl
  have hbehind := h Sample.classify Sample.settings [] [] Sample.source [] Sample.bodyFirst rfl rfl
    hdefers
  exact absurd (hread.symm.trans hbehind) (by simp)

end ImagePreview

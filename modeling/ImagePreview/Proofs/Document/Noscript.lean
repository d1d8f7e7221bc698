import ImagePreview.Proofs.Document.Depth
import ImagePreview.Proofs.Scripts.Placement
import Mathlib.Data.List.Basic

/-!
What stands between the tags of a `noscript` element. Images there stay as they are; but heads and
bodies are seen there as anywhere else, and blocks are put in for them.
-/
namespace ImagePreview

open Markup

/-- Blocks stand next to an event, in `noscript` or not: behind the first body, behind the first
head, or where the document ends the body. -/
inductive IsSite (source : Source) (policy : Policy) (earlier : List Moment) (x : Moment)
    (later : List Moment) : Prop
  | body : x.event.starts .body = true → (∀ y ∈ earlier, y.event.starts .body = false) →
      IsSite source policy earlier x later
  | head : policy.settings.deferScripts = true → x.event.starts .head = true →
      (∀ y ∈ earlier, y.event.starts .head = false) → IsSite source policy earlier x later
  | bodyEnd : TakesBlocks source policy.mode earlier x later → IsSite source policy earlier x later

theorem Recorded.follow_eq_nil_iff {source : Source} {earlier : List Moment} {x : Moment}
    (h : Recorded source earlier x.document) (hx : x.event ≠ .finish) :
    x.document.follow x.event = [] ↔
      ¬ (x.event.starts .body = true ∧ ∀ y ∈ earlier, y.event.starts .body = false) ∧
      ¬ (x.document.policy.settings.deferScripts = true ∧ x.event.starts .head = true ∧
        ∀ y ∈ earlier, y.event.starts .head = false) := by
  cases hd : x.document.policy.settings.deferScripts <;>
    simp [Document.follow, h.fallback, h.deferHead, hx, hd]

/-- Where no preview stands directly in front, a moment without a treatment has blocks around it if
it is a site. -/
theorem Placed.bare_iff {source : Source} {doc : Document} {put p q : List (List Block × Moment)}
    {x : List Block × Moment} (h : Placed source doc.policy.mode put) (hsplit : put = p ++ x :: q)
    (hrecorded : Recorded source (p.map Prod.snd) x.2.document) (hstays : doc.Stays x.2.document)
    (hx : x.2.event ≠ .finish) (hnone : x.2.treatment source = .none)
    (hfront : ¬ LastShows source (p.map Prod.snd)) :
    ((Moment.spot source x).before = [] ∧ (Moment.spot source x).behind = []) ↔
      ¬ IsSite source doc.policy (p.map Prod.snd) x.2 (q.map Prod.snd) := by
  obtain ⟨hblocks, htakes⟩ := h p x q hsplit hx
  have hbehind : (Moment.spot source x).behind = [] ↔ _ := hrecorded.follow_eq_nil_iff hx
  have hbefore : (Moment.spot source x).before = x.1 := by
    rw [Moment.spot, Moment.lead_of_none hnone, List.append_nil]
  rw [hbehind, hbefore, hstays.policy]
  constructor
  · rintro ⟨hempty, hbody, hhead⟩ (⟨hb, hfirst⟩ | ⟨hd, hh, hfirst⟩ | hends)
    · exact hbody ⟨hb, hfirst⟩
    · exact hhead ⟨hd, hh, hfirst⟩
    · exact htakes hends hempty
  · intro hsite
    refine ⟨?_, fun hb => hsite (.body hb.1 hb.2), fun hh => hsite (.head hh.1 hh.2.1 hh.2.2)⟩
    by_contra hsome
    obtain hshows | hends := hblocks hsome
    · exact hfront hshows
    · exact hsite (.bodyEnd hends)

namespace Spot

variable {source : Source} {assets : Assets}

def writeBlocks (assets : Assets) (s : Spot) (blocks : List Block) : Text :=
  blocks.flatMap (Block.write assets s.moment.document.policy.settings.debug)

/-- The output from the text of a start tag to that of an end tag, with both of them. -/
def stretch (source : Source) (assets : Assets) (opening : Spot) (inner : List Spot)
    (closing : Spot) : Text :=
  opening.moment.text source assets ++ opening.writeBlocks assets opening.behind ++
    inner.flatMap (write source assets) ++ closing.writeBlocks assets closing.before ++
    closing.moment.text source assets

def input (opening : Spot) (inner : List Spot) (closing : Spot) : Text :=
  opening.moment.event.write ++ (inner.flatMap fun s => s.moment.event.write) ++
    closing.moment.event.write

theorem flatMap_write_stretch (earlier : List Spot) (opening : Spot) (inner : List Spot)
    (closing : Spot) (later : List Spot) :
    (earlier ++ opening :: (inner ++ closing :: later)).flatMap (write source assets) =
      earlier.flatMap (write source assets) ++ opening.writeBlocks assets opening.before ++
        stretch source assets opening inner closing ++
        closing.writeBlocks assets closing.behind ++ later.flatMap (write source assets) := by
  simp [stretch, write, writeBlocks]

theorem length_flatMap_write {spots : List Spot}
    (htext : ∀ s ∈ spots, s.moment.text source assets = s.moment.event.write) :
    (spots.flatMap (write source assets)).length =
      (spots.flatMap fun s => s.moment.event.write).length +
        (spots.flatMap fun s => s.writeBlocks assets (s.before ++ s.behind)).length := by
  induction spots with
  | nil => rfl
  | cons s spots ih =>
    have hs := htext s (by simp)
    have hrest := ih fun x hx => htext x (by simp [hx])
    simp only [List.flatMap_cons, List.length_append, write, writeBlocks, hs,
      List.flatMap_append] at hrest ⊢
    omega

theorem eq_nil_of_writeBlocks {s : Spot} {blocks : List Block}
    (h : s.writeBlocks assets blocks = []) : blocks = [] :=
  List.eq_nil_iff_forall_not_mem.mpr fun b hb =>
    Block.write_ne_nil assets _ b (List.flatMap_eq_nil_iff.mp h b hb)

theorem flatMap_write_eq_iff {spots : List Spot}
    (htext : ∀ s ∈ spots, s.moment.text source assets = s.moment.event.write) :
    (spots.flatMap (write source assets) = spots.flatMap fun s => s.moment.event.write) ↔
      ∀ s ∈ spots, s.before = [] ∧ s.behind = [] := by
  constructor
  · intro h s hs
    have hlength := length_flatMap_write htext
    rw [h, Nat.left_eq_add, List.length_eq_zero_iff] at hlength
    exact List.append_eq_nil_iff.mp
      (eq_nil_of_writeBlocks (List.flatMap_eq_nil_iff.mp hlength s hs))
  · intro h
    refine List.flatMap_congr fun s hs => ?_
    simp [write, h s hs, htext s hs]

/-- Between tags without blocks, a stretch is as it came if no block stands in it. -/
theorem stretch_eq_iff {opening closing : Spot} {inner : List Spot}
    (htext : ∀ s ∈ opening :: closing :: inner,
      s.moment.text source assets = s.moment.event.write)
    (hopening : opening.behind = []) (hclosing : closing.before = []) :
    stretch source assets opening inner closing = input opening inner closing ↔
      ∀ s ∈ inner, s.before = [] ∧ s.behind = [] := by
  rw [← flatMap_write_eq_iff fun s hs => htext s (by simp [hs]), stretch, input, hopening, hclosing,
    htext opening (by simp), htext closing (by simp)]
  simp [writeBlocks]

end Spot

structure Document.FinalSpots (doc : Document) (source : Source) (asked : List Lookup)
    (assets : Assets) (events : List Event) (spots : List Spot) : Prop where
  moments : spots.map Spot.moment <+: doc.moments source asked events
  ended : (doc.run source asked events).document.finished = true →
    spots.map Spot.moment = doc.moments source asked events
  output : ((doc.run source asked events).document.take assets).1 =
    spots.flatMap (Spot.write source assets)

@[simp] theorem Moment.moment_spot (source : Source) (x : List Block × Moment) :
    (Moment.spot source x).moment = x.2 := rfl

@[simp] theorem Moment.map_moment_spot (source : Source) (put : List (List Block × Moment)) :
    put.map (Spot.moment ∘ Moment.spot source) = put.map Prod.snd := rfl

structure Document.HasNoscript (doc : Document) (source : Source) (ms : List Moment)
    (front : List (List Block × Moment)) (opening : List Block × Moment)
    (inner : List (List Block × Moment)) (closing : List Block × Moment)
    (rear : List (List Block × Moment)) : Prop where
  course : (front ++ opening :: (inner ++ closing :: rear)).map Prod.snd <+: ms
  placed : Placed source doc.policy.mode (front ++ opening :: (inner ++ closing :: rear))
  opens : opening.2.event.opensNoscript = true
  balanced : Balanced (inner.map fun x => x.2.event)
  ends : closing.2.event.endsNoscript = true

namespace Document.HasNoscript

variable {doc : Document} {source : Source} {asked : List Lookup} {events : List Event}
  {front inner rear a b : List (List Block × Moment)} {opening closing x : List Block × Moment}

theorem exists_course
    (h : doc.HasNoscript source (doc.moments source asked events) front opening inner closing rear)
    (hsplit : opening :: (inner ++ [closing]) = a ++ x :: b) :
    ∃ later, doc.moments source asked events = (front ++ a).map Prod.snd ++ x.2 :: later := by
  obtain ⟨rest, hrest⟩ := h.course
  refine ⟨(b ++ rear).map Prod.snd ++ rest, ?_⟩
  have hput : front ++ opening :: (inner ++ closing :: rear) =
      front ++ (opening :: (inner ++ [closing])) ++ rear := by
    simp
  rw [← hrest, hput, hsplit]
  simp

theorem treatment_inner
    (h : doc.HasNoscript source (doc.moments source asked events) front opening inner closing rear)
    (hfresh : doc.Fresh) (ha : doc.isActive = true) (hx : x ∈ inner) :
    x.2.treatment source = .none := by
  obtain ⟨a, b, rfl⟩ := List.append_of_mem hx
  have hcut : opening :: (a ++ x :: b ++ [closing]) = (opening :: a) ++ x :: (b ++ [closing]) := by
    simp
  obtain ⟨later, hms⟩ := h.exists_course hcut
  refine Moment.treatment_of_depth ?_
  rw [Document.depth_course source hfresh ha asked events hms]
  have hbalanced := h.balanced
  rw [List.map_append] at hbalanced
  simpa [Function.comp_def] using hbalanced.depth_ne_zero h.opens (front.map fun y => y.2.event)

theorem not_lastShows
    (h : doc.HasNoscript source (doc.moments source asked events) front opening inner closing rear)
    (hfresh : doc.Fresh) (ha : doc.isActive = true) (hinner : inner = a ++ b) :
    ¬ LastShows source ((front ++ opening :: a).map Prod.snd) := by
  rw [List.map_append]
  refine not_lastShows_append (by simp) fun y hy => ?_
  obtain ⟨x, hx, rfl⟩ := List.mem_map.mp hy
  refine Moment.shows_of_none ?_
  rcases List.mem_cons.mp hx with rfl | hx
  · exact Moment.treatment_of_opensNoscript h.opens
  · exact h.treatment_inner hfresh ha (by simp [hinner, hx])

theorem before_closing
    (h : doc.HasNoscript source (doc.moments source asked events) front opening inner closing rear)
    (hfresh : doc.Fresh) (ha : doc.isActive = true) : (Moment.spot source closing).before = [] := by
  have hfinish : closing.2.event ≠ .finish := by
    intro he
    have hends := h.ends
    rw [he] at hends
    contradiction
  have hplaced := h.placed (front ++ opening :: inner) closing rear (by simp) hfinish
  have hblocks : closing.1 = [] := by
    by_contra hsome
    obtain hshows | htakes := hplaced.1 hsome
    · exact h.not_lastShows hfresh ha (List.append_nil inner).symm hshows
    · have hbody := htakes.isBodyEnd
      rw [Moment.isBodyEnd_of_endsNoscript h.ends] at hbody
      contradiction
  rw [Moment.spot, hblocks, Moment.lead_of_none (Moment.treatment_of_endsNoscript h.ends)]
  rfl

theorem bare_iff
    (h : doc.HasNoscript source (doc.moments source asked events) front opening inner closing rear)
    (hfresh : doc.Fresh) (ha : doc.isActive = true) (hinner : inner = a ++ x :: b) :
    ((Moment.spot source x).before = [] ∧ (Moment.spot source x).behind = []) ↔
      ¬ IsSite source doc.policy ((front ++ opening :: a).map Prod.snd) x.2
        ((b ++ closing :: rear).map Prod.snd) := by
  have hcut : opening :: (inner ++ [closing]) = (opening :: a) ++ x :: (b ++ [closing]) := by
    simp [hinner]
  obtain ⟨later, hms⟩ := h.exists_course hcut
  obtain ⟨more, hall⟩ := h.exists_course (List.cons_append (a := opening)).symm
  obtain ⟨hstays, hrecorded⟩ := (arranged_course source hfresh ha asked events).2.2 _ _ _ hms
  have hx : x.2.event ≠ .finish :=
    (finished_course ha hfresh.finished).2 _ _ _ hall x.2 (List.mem_map_of_mem (by simp [hinner]))
  exact h.placed.bare_iff (by simp [hinner]) hrecorded hstays hx
    (h.treatment_inner hfresh ha (by simp [hinner])) (h.not_lastShows hfresh ha hinner)

theorem stretch_eq_iff (assets : Assets)
    (h : doc.HasNoscript source (doc.moments source asked events) front opening inner closing rear)
    (hfresh : doc.Fresh) (ha : doc.isActive = true) :
    Spot.stretch source assets (Moment.spot source opening) (inner.map (Moment.spot source))
          (Moment.spot source closing) =
        Spot.input (Moment.spot source opening) (inner.map (Moment.spot source))
          (Moment.spot source closing) ↔
      ∀ a x b, inner = a ++ x :: b →
        ¬ IsSite source doc.policy ((front ++ opening :: a).map Prod.snd) x.2
          ((b ++ closing :: rear).map Prod.snd) := by
  have htext : ∀ s ∈ Moment.spot source opening :: Moment.spot source closing ::
      inner.map (Moment.spot source), s.moment.text source assets = s.moment.event.write := by
    intro s hs
    refine Moment.text_of_none assets ?_
    simp only [List.mem_cons, List.mem_map] at hs
    obtain rfl | rfl | ⟨x, hx, rfl⟩ := hs
    · exact Moment.treatment_of_opensNoscript h.opens
    · exact Moment.treatment_of_endsNoscript h.ends
    · exact h.treatment_inner hfresh ha hx
  rw [Spot.stretch_eq_iff htext (Moment.follow_of_opensNoscript h.opens)
    (h.before_closing hfresh ha)]
  constructor
  · intro hbare a x b hinner
    exact (h.bare_iff hfresh ha hinner).mp (hbare _ (List.mem_map_of_mem (by simp [hinner])))
  · intro hsites s hs
    obtain ⟨x, hx, rfl⟩ := List.mem_map.mp hs
    obtain ⟨a, b, hinner⟩ := List.append_of_mem hx
    exact (h.bare_iff hfresh ha hinner).mpr (hsites a x b hinner)

end Document.HasNoscript

theorem Document.exists_finalSpots (source : Source) {doc : Document} (hfresh : doc.Fresh)
    (ha : doc.isActive = true) (asked : List Lookup) (assets : Assets) (events : List Event) :
    ∃ put, Placed source doc.policy.mode put ∧
      doc.FinalSpots source asked assets events (put.map (Moment.spot source)) := by
  obtain ⟨put, hcourse, hended, hclosed, hplaced⟩ := exists_placed source hfresh ha asked events
  obtain ⟨hstays, -, hat⟩ := arranged_course source hfresh ha asked events
  have hpolicy : ∀ x ∈ put, x.2.document.policy = doc.policy := by
    intro x hx
    obtain ⟨front, rear, hsplit⟩ :=
      List.append_of_mem (hcourse.subset (List.mem_map_of_mem hx))
    exact (hat front x.2 rear hsplit).1.policy
  refine ⟨put, hplaced, by simpa using hcourse, by simpa using hended, ?_⟩
  rw [take, Buffer.take, hstays.policy, hclosed, render_laid _ _ hpolicy]

/-- The output from a `noscript` start tag to its end tag is as it came, if it has none of the
places where the document has blocks put in. -/
theorem noscript_kept_iff (classify : Classifier) (settings : Settings) (url client : Text)
    (source : Source) (asked : List Lookup) (assets : Assets) (events : List Event)
    (ha : (Document.start classify settings url client).isActive = true) :
    let doc := Document.start classify settings url client
    ∃ spots, doc.FinalSpots source asked assets events spots ∧
      ∀ earlier opening inner closing later,
        spots = earlier ++ opening :: (inner ++ closing :: later) →
        opening.moment.event.opensNoscript = true →
        Balanced (inner.map fun s => s.moment.event) →
        closing.moment.event.endsNoscript = true →
          ((doc.run source asked events).document.take assets).1 =
            earlier.flatMap (Spot.write source assets) ++
              opening.writeBlocks assets opening.before ++
              Spot.stretch source assets opening inner closing ++
              closing.writeBlocks assets closing.behind ++
              later.flatMap (Spot.write source assets) ∧
          (Spot.stretch source assets opening inner closing = Spot.input opening inner closing ↔
            ∀ a s b, inner = a ++ s :: b →
              ¬ IsSite source doc.policy ((earlier ++ opening :: a).map Spot.moment) s.moment
                ((b ++ closing :: later).map Spot.moment)) := by
  intro doc
  have hfresh : doc.Fresh := Document.fresh_start ..
  obtain ⟨put, hplaced, hfinal⟩ :=
    Document.exists_finalSpots source hfresh ha asked assets events
  refine ⟨put.map (Moment.spot source), hfinal, ?_⟩
  intro earlier opening inner closing later hspots hopens hbalanced hends
  refine ⟨by rw [hfinal.output, hspots, Spot.flatMap_write_stretch], ?_⟩
  have hcourse := hfinal.moments
  obtain ⟨front, rest, rfl, rfl, ho⟩ := List.map_eq_append_iff.mp hspots
  obtain ⟨o, rest, rfl, rfl, hi⟩ := List.map_eq_cons_iff.mp ho
  obtain ⟨i, rest, rfl, rfl, hc⟩ := List.map_eq_append_iff.mp hi
  obtain ⟨c, rear, rfl, rfl, rfl⟩ := List.map_eq_cons_iff.mp hc
  have h : doc.HasNoscript source (doc.moments source asked events) front o i c rear :=
    ⟨by simpa using hcourse, hplaced, hopens, by simpa [Function.comp_def] using hbalanced, hends⟩
  rw [h.stretch_eq_iff assets hfresh ha]
  constructor
  · intro hsites a s b hsplit
    obtain ⟨a, rest, rfl, rfl, hs⟩ := List.map_eq_append_iff.mp hsplit
    obtain ⟨x, b, rfl, rfl, rfl⟩ := List.map_eq_cons_iff.mp hs
    simpa using hsites a x b rfl
  · intro hsites a x b hinner
    have hsite := hsites (a.map (Moment.spot source)) (Moment.spot source x)
      (b.map (Moment.spot source)) (by simp [hinner])
    simpa using hsite

namespace Sample

def noscript : Token := .startTag { name := "noscript".toList }

def noscriptEnd : Token := .endTag { name := "noscript".toList }

def body : Token := .startTag { name := "body".toList }

def imageInNoscript : List Event :=
  [.token noscript, image "a".toList, .token noscriptEnd, .finish]

end Sample

theorem sample_noscript_kept :
    Sample.document.isActive = true ∧
      ∃ opening inner closing rest,
        Sample.document.FinalSpots Sample.source [] .usual Sample.imageInNoscript
          [opening, inner, closing, rest] ∧
        [opening, inner, closing, rest].map (fun s => s.moment.event) = Sample.imageInNoscript ∧
        Spot.stretch Sample.source .usual opening [inner] closing =
          Spot.input opening [inner] closing := by
  obtain ⟨spots, hspots, hkept⟩ := noscript_kept_iff Sample.classify Sample.settings [] []
    Sample.source [] .usual Sample.imageInNoscript rfl
  have hevents : spots.map (fun s => s.moment.event) = Sample.imageInNoscript := by
    have hmoments := congrArg (List.map Moment.event) (hspots.ended rfl)
    rw [List.map_map] at hmoments
    exact hmoments
  obtain ⟨opening, _, rfl, hopening, ho⟩ := List.map_eq_cons_iff.mp hevents
  obtain ⟨inner, _, rfl, hinner, hi⟩ := List.map_eq_cons_iff.mp ho
  obtain ⟨closing, _, rfl, hclosing, hc⟩ := List.map_eq_cons_iff.mp hi
  obtain ⟨rest, _, rfl, hrest, hnil⟩ := List.map_eq_cons_iff.mp hc
  rw [List.map_eq_nil_iff] at hnil
  subst hnil
  refine ⟨rfl, opening, inner, closing, rest, hspots, hevents, ?_⟩
  refine (hkept [] opening [inner] closing [rest] rfl (by rw [hopening]; rfl) ?_
    (by rw [hclosing]; rfl)).2.mpr ?_
  · rw [List.map_singleton, hinner]
    exact .other rfl rfl .nil
  · intro a s b hsplit
    have hs : s = inner := by
      simpa using (show s ∈ [inner] by simp [hsplit])
    rw [hs]
    rintro (⟨hbody, -⟩ | ⟨-, hhead, -⟩ | ⟨hend, -⟩)
    · rw [hinner] at hbody
      contradiction
    · rw [hinner] at hhead
      contradiction
    · rw [Moment.isBodyEnd, hinner] at hend
      contradiction

def Piece.event? : Piece → Option Event
  | token t => some (.token t)
  | _ => none

def Sample.bodyInNoscript : List Event :=
  [.token noscript, .token body, .token noscriptEnd, .finish]

/-- Blocks are put in between the tags of `noscript` elements. -/
theorem not_always_kept :
    ¬ ∀ (classify : Classifier) (settings : Settings) (url client : Text) (source : Source)
        (asked : List Lookup) (events : List Event) (a mid b : List Piece)
        (opening closing : Token),
      let doc := Document.start classify settings url client
      doc.isActive = true →
        (doc.run source asked events).document.buffer.closed =
          a ++ .token opening :: (mid ++ .token closing :: b) →
        Event.opensNoscript (.token opening) = true → Balanced (mid.filterMap Piece.event?) →
        Event.endsNoscript (.token closing) = true → ∀ block, Piece.block block ∉ mid := by
  intro h
  have hnone := h Sample.classify Sample.settings [] [] Sample.source [] Sample.bodyInNoscript []
    [.token Sample.body, .block (.fallback [])] [.block .deferLoader] Sample.noscript
    Sample.noscriptEnd rfl rfl rfl (.other rfl rfl .nil) rfl (.fallback [])
  simp at hnone

end ImagePreview

import ImagePreview.Proofs.Document.Windows

/-!
Reading output for what bears on previews: the images that have one, and the scripts that put
previews in or full images back. A closed window reads as its images, with the scripts that it was
closed with behind all of them.
-/
namespace ImagePreview

open Markup

inductive Cue
  | image (url : Text)
  | library
  | registrations (entries : List Registration)
  | activation (whenSeen : Bool)
deriving DecidableEq

def Block.cue? : Block → Option Cue
  | previewLibrary => some .library
  | registrations entries => some (.registrations entries)
  | activation whenSeen => some (.activation whenSeen)
  | _ => none

def Piece.cue? : Piece → Option Cue
  | preview _ url _ => some (.image url)
  | block b => b.cue?
  | _ => none

def cues (pieces : List Piece) : List Cue := pieces.filterMap Piece.cue?

namespace Cue

def image? : Cue → Option Text
  | image url => some url
  | _ => none

def batch? : Cue → Option (List Registration)
  | registrations entries => some entries
  | _ => none

def images (cs : List Cue) : List Text := cs.filterMap image?

def scripts (cs : List Cue) : List Cue := cs.filter fun c => c.image?.isNone

def batches (cs : List Cue) : List (List Registration) := cs.filterMap batch?

def entries (cs : List Cue) : List Registration := (batches cs).flatten

def registered (cs : List Cue) : List Text := (entries cs).map Registration.url

variable (a b : List Cue)

@[simp] theorem images_append : images (a ++ b) = images a ++ images b := List.filterMap_append

@[simp] theorem scripts_append : scripts (a ++ b) = scripts a ++ scripts b := List.filter_append ..

@[simp] theorem batches_append : batches (a ++ b) = batches a ++ batches b := List.filterMap_append

@[simp] theorem entries_append : entries (a ++ b) = entries a ++ entries b := by simp [entries]

@[simp] theorem registered_append : registered (a ++ b) = registered a ++ registered b := by
  simp [registered]

theorem batches_scripts : batches (scripts a) = batches a := by
  rw [batches, scripts, List.filterMap_filter, batches]
  congr 1
  funext c
  cases c <;> rfl

@[simp] theorem images_map (urls : List Text) : images (urls.map image) = urls := by
  simp [images, List.filterMap_map, Function.comp_def, image?]

@[simp] theorem scripts_map (urls : List Text) : scripts (urls.map image) = [] := by
  simp [scripts, List.filter_eq_nil_iff, image?]

@[simp] theorem batches_map (urls : List Text) : batches (urls.map image) = [] := by
  simp [batches, batch?]

@[simp] theorem entries_map (urls : List Text) : entries (urls.map image) = [] := by
  simp [entries]

end Cue

@[simp] theorem cues_append (a b : List Piece) : cues (a ++ b) = cues a ++ cues b :=
  List.filterMap_append

@[simp] theorem cues_blocks (blocks : List Block) :
    cues (blocks.map .block) = blocks.filterMap Block.cue? := by
  simp [cues, List.filterMap_map, Function.comp_def, Piece.cue?]

def Treatment.shown? : Treatment → Option Text
  | preview url _ => some url
  | _ => Option.none

def Moment.shown? (source : Source) (m : Moment) : Option Text := (m.treatment source).shown?

def shown (source : Source) (ms : List Moment) : List Text := ms.filterMap (Moment.shown? source)

variable {source : Source} {ms : List Moment} {m : Moment}

@[simp] theorem shown_append (a b : List Moment) :
    shown source (a ++ b) = shown source a ++ shown source b := List.filterMap_append

@[simp] theorem shown_singleton (m : Moment) : shown source [m] = (m.shown? source).toList := by
  rw [shown, List.filterMap_cons]
  cases m.shown? source <;> rfl

theorem shown?_of_closes (hc : m.event.closes = true) : m.shown? source = none := by
  rw [Moment.shown?, Moment.treatment_of_closes hc]
  rfl

@[simp] theorem cues_ofToken (t : Token) : cues (Piece.ofToken t) = [] := by
  rw [Piece.ofToken]
  split <;> rfl

theorem cues_pieces (m : Moment) :
    cues (m.pieces source) = (m.shown? source).toList.map .image := by
  have hlead : (m.document.lead source m.asked m.event).filterMap Block.cue? = [] := by
    rw [Document.lead]
    split <;> rfl
  have hfollow : (m.document.follow m.event).filterMap Block.cue? = [] := by
    simp only [Document.follow, List.filterMap_append, List.append_eq_nil_iff]
    refine ⟨⟨?_, ?_⟩, ?_⟩ <;> split <;> rfl
  have hunit : cues (m.unit source) = (m.shown? source).toList.map .image := by
    rw [Moment.unit, Moment.shown?, Moment.treatment]
    cases m.event with
    | token t =>
      cases t with
      | startTag tag =>
        simp only [Document.unit, Document.treatmentAt]
        cases m.document.treatment source m.asked tag with
        | preview url p => rfl
        | placeholder => rfl
        | none => simp [Treatment.unit, Treatment.shown?]
      | endTag tag => simp [Document.unit, Document.treatmentAt, Treatment.shown?]
      | text t => simp [Document.unit, Document.treatmentAt, Treatment.shown?]
    | flush | finish => rfl
  rw [Moment.unit] at hunit
  simp [Moment.pieces, Document.pieces, hlead, hfollow, hunit]

theorem cues_piecesOf (ms : List Moment) :
    cues (piecesOf source ms) = (shown source ms).map .image := by
  induction ms with
  | nil => rfl
  | cons m ms ih =>
    rw [← List.singleton_append, piecesOf_append, piecesOf_singleton, shown_append,
      shown_singleton, cues_append, cues_pieces, ih, List.map_append]

theorem shown?_of_not_shows (h : m.shows source = false) : m.shown? source = none := by
  rw [Moment.shows] at h
  rw [Moment.shown?]
  cases ht : m.treatment source with
  | preview url p =>
    rw [ht] at h
    contradiction
  | placeholder | none => rfl

theorem shown_of_not_shows (h : ∀ x ∈ ms, x.shows source = false) : shown source ms = [] :=
  List.filterMap_eq_nil_iff.mpr fun x hx => shown?_of_not_shows (h x hx)

theorem shown_eq_nil_iff : shown source ms = [] ↔ ∀ x ∈ ms, x.shows source = false := by
  refine ⟨fun h x hx => ?_, shown_of_not_shows⟩
  have hnone := List.filterMap_eq_nil_iff.mp h x hx
  rw [Moment.shown?] at hnone
  rw [Moment.shows]
  cases ht : x.treatment source with
  | preview url p =>
    rw [ht] at hnone
    contradiction
  | placeholder | none => rfl

theorem Moment.handed_of_closes (ha : m.document.isActive = true) (hc : m.event.closes = true) :
    m.handed source =
      m.document.buffer.woven ((m.document.trailer (m.event = .finish)).map .block)
          ((m.document.scripts (m.event = .finish)).map .block) ++
        (m.document.tail (m.event = .finish)).map .block := by
  rw [handed, next_of_closes ha hc]
  simp [Buffer.close]

theorem cues_handed (ha : m.document.isActive = true) (hc : m.event.closes = true)
    (h : Opened source ms m.document.buffer) :
    cues (m.handed source) = (shown source ms).map .image ++
      (m.document.scripts (m.event = .finish)).filterMap Block.cue? := by
  have htrailer : cues ((m.document.trailer (m.event = .finish)).map .block) = [] := by
    rw [Document.trailer, cues_blocks]
    split <;> rfl
  have htail : cues ((m.document.tail (m.event = .finish)).map .block) = [] := by
    rw [Document.tail, cues_blocks]
    split <;> rfl
  obtain ⟨front, rear, hwoven, hread, hrear⟩ :=
    m.document.buffer.woven_scripts ((m.document.trailer (m.event = .finish)).map .block)
      ((m.document.scripts (m.event = .finish)).map .block) h.bodyEnd_le h.previewEnd_le
  obtain ⟨rest, hrest, hdrop⟩ := h.drop_previewEnd
  have hnone : cues rear = [] := by
    refine List.filterMap_eq_nil_iff.mpr fun piece hpiece => ?_
    obtain hmem | hmem := hrear piece hpiece
    · exact List.filterMap_eq_nil_iff.mp htrailer piece hmem
    · have hcues : cues (piecesOf source rest) = [] := by
        rw [cues_piecesOf, shown_of_not_shows hrest]
        rfl
      exact List.filterMap_eq_nil_iff.mp hcues piece (hdrop piece hmem)
  have hfront : cues front = (shown source ms).map .image := by
    have hboth := hread Piece.cue? htrailer
    rw [h.window] at hboth
    change cues front ++ cues rear = cues (piecesOf source ms) at hboth
    rwa [hnone, List.append_nil, cues_piecesOf] at hboth
  rw [Moment.handed_of_closes ha hc, hwoven]
  simp [hfront, hnone, htail]

end ImagePreview

import ImagePreview.Proofs.Document.Governed
import ImagePreview.Proofs.Document.Taking
import ImagePreview.Proofs.Scripts.Addresses
import ImagePreview.Proofs.Scripts.Cue

/-!
Debugging. Whether the scripts of a document are being debugged, and what assets it has, tells which
texts its blocks are written with, and nothing else: its course and the pieces that it is made of do
not depend on it, and of its tags only the url of the blank image does.
-/
namespace ImagePreview

open Markup

def Settings.debugging (debug : Bool) (settings : Settings) : Settings := { settings with debug }

def Policy.debugging (debug : Bool) (policy : Policy) : Policy :=
  { policy with settings := policy.settings.debugging debug }

/-- The assets whose usual scripts and loader are the ones for debugging. Those that they have for
debugging are of others. -/
def Assets.unabridged (assets others : Assets) : Assets where
  script library debug := (if debug then others else assets).script library true
  blankImageUrl := assets.blankImageUrl
  deferLoaderUrl debug := (if debug then others else assets).deferLoaderUrl true

theorem Policy.agrees_debugging (source : Source) (policy : Policy) (debug : Bool) :
    policy.Agrees source (policy.debugging debug) where
  mode := rfl
  lazyload := rfl
  lazyFullImages := rfl
  deferScripts := rfl
  allowsIndex _ := rfl
  lookup _ := rfl
  outcome _ _ := rfl

namespace Piece

theorem render_unabridged (others assets : Assets) (policy : Policy) (pieces : List Piece) :
    render (policy.debugging false) (assets.unabridged others) pieces =
      render (policy.debugging true) assets pieces := by
  have hblock (b : Block) : b.write (assets.unabridged others) false = b.write assets true := by
    cases b <;> rfl
  have hwrite : write (policy.debugging false) (assets.unabridged others) =
      write (policy.debugging true) assets := by
    funext piece
    cases piece with
    | block b => exact hblock b
    | token t | preview tag url preview | placeholder tag => rfl
  rw [render, render, hwrite]

def blank (policy : Policy) (assets : Assets) : Piece → Text
  | placeholder _ => Text.Reference.encode assets.blankImageUrl
  | preview _ _ _ =>
    if policy.mode = .scripted ∧ policy.lazyFullImages = true then
      Text.Reference.encode assets.blankImageUrl
    else []
  | _ => []

/-- The text around a source that is put in is the same for every url. -/
theorem exists_writtenSource {tag : StartTag} {name : Text} {more : List Attribute}
    {form : Text → StartTag}
    (h : ∀ url, WrittenSource tag (form url) name (Text.Reference.encode url) more) :
    ∃ front rear, ∀ url, (form url).write = front ++ Text.Reference.encode url ++ rear :=
  ⟨_, _, fun url => by rw [(h url).write, List.append_assoc _ ['"'], List.append_assoc _ (_ ++ _)]⟩

theorem exists_write {piece : Piece} (hown : piece.isOwn = true) (policy : Policy) :
    ∃ front rear, ∀ debug assets,
      piece.write (policy.debugging debug) assets = front ++ piece.blank policy assets ++ rear := by
  cases piece with
  | token t => exact ⟨t.write, [], fun _ _ => by simp [write, blank]⟩
  | block b => contradiction
  | placeholder tag =>
    obtain ⟨front, rear, h⟩ := exists_writtenSource fun url => writtenSource_asPlaceholder tag url
    exact ⟨front, rear, fun _ assets => h assets.blankImageUrl⟩
  | preview tag url preview =>
    by_cases hblank : policy.mode = .scripted ∧ policy.lazyFullImages = true
    · obtain ⟨front, rear, h⟩ := exists_writtenSource fun url =>
        writtenSource_withPreview tag url preview
      refine ⟨front, rear, fun debug assets => ?_⟩
      have hform : previewTag (policy.debugging debug) assets tag preview =
          tag.withPreview .scripted preview (some assets.blankImageUrl) := by
        simp [previewTag, Policy.debugging, hblank]
      rw [write, hform, blank, if_pos hblank]
      exact h assets.blankImageUrl
    · refine ⟨(tag.withPreview policy.mode preview none).write, [], fun debug assets => ?_⟩
      rw [blank, if_neg hblank, List.append_nil, List.append_nil]
      -- in inline mode there is no place for the blank image
      cases hmode : policy.mode with
      | inline => simp [write, previewTag, Policy.debugging, StartTag.withPreview, hmode]
      | scripted =>
        have hlazy : policy.lazyFullImages = false := by simpa [hmode] using hblank
        simp [write, previewTag, Policy.debugging, hmode, hlazy]

end Piece

/-- Two runs with the same course and the same pieces, whose tags are written with nothing but the
urls of their blank images apart. -/
structure SameButScripts (assets others : Assets) (a b : Document.Run) : Prop where
  trace : a.trace = b.trace
  error : a.error = b.error
  buffer : a.document.buffer = b.document.buffer
  ledger : a.document.ledger = b.document.ledger
  entries : Cue.entries (cues a.document.buffer.closed) =
    Cue.entries (cues b.document.buffer.closed)
  texts : ∀ piece ∈ a.document.buffer.closed ++ a.document.buffer.window, piece.isOwn = true →
    ∃ front rear,
      piece.write a.document.policy assets =
        front ++ piece.blank a.document.policy assets ++ rear ∧
      piece.write b.document.policy others =
        front ++ piece.blank b.document.policy others ++ rear

/-- A document that is debugged has the output that it would have with the scripts for debugging as
its usual ones. Whatever its assets are, and whether it is debugged, the same is looked up, logged,
refused and registered, the same pieces are written, and their tags with the same texts, but for the
url of the blank image. -/
theorem debugging_is_written_only (classify : Classifier) (settings : Settings) (url client : Text)
    (source : Source) (assets others : Assets) :
    let start := fun debug => Document.start classify (settings.debugging debug) url client
    (∀ asked events,
      ((start true).run source asked events).output assets =
        ((start false).run source asked events).output (assets.unabridged others)) ∧
      (∀ windows,
        deliver ⟨classify, source, assets⟩ (settings.debugging true) url client windows =
          deliver ⟨classify, source, assets.unabridged others⟩ (settings.debugging false) url client
            windows) ∧
      ∀ debug other,
        (start debug).startTrace = (start other).startTrace ∧
          ∀ asked events, SameButScripts assets others ((start debug).run source asked events)
            ((start other).run source asked events) := by
  intro start
  let doc := Document.start classify settings url client
  have hagrees (debug : Bool) : doc.policy.Agrees source (doc.policy.debugging debug) :=
    doc.policy.agrees_debugging source debug
  have hrun (debug : Bool) (asked : List Lookup) (events : List Event) :
      (start debug).run source asked events =
        { doc.run source asked events with
          document := (doc.run source asked events).document.under
            (doc.policy.debugging debug) } := Document.run_under (hagrees debug) asked events
  refine ⟨fun asked events => ?_, fun windows => ?_,
    fun debug other => ⟨rfl, fun asked events => ?_⟩⟩
  · rw [hrun, hrun]
    exact (Piece.render_unabridged others assets doc.policy _).symm
  · let services : Services := ⟨classify, source, assets⟩
    let plain : Services := ⟨classify, source, assets.unabridged others⟩
    have hplain : (start false).deliver plain [] windows =
        (start true).deliver services [] windows :=
      @Document.deliver_under services plain rfl _ (start true)
        ((start true).policy.agrees_debugging source false)
        (Piece.render_unabridged others assets doc.policy) [] windows
    rw [deliver, deliver, hplain]
    rfl
  · rw [hrun, hrun]
    refine ⟨rfl, rfl, rfl, rfl, rfl, fun piece _ hown => ?_⟩
    obtain ⟨front, rear, hwrite⟩ := Piece.exists_write hown doc.policy
    exact ⟨front, rear, hwrite debug assets, hwrite other others⟩

end ImagePreview

import ImagePreview.Proofs.Document.Parts

/-!
Documents under another policy. All that a document takes from its policy before it is written out
is where previews go, which images load late, whether scripts run late, what is looked up and what
counts as its outcome. A policy that agrees in this has the same course.
-/
namespace ImagePreview

open Markup

structure Policy.Agrees (source : Source) (a b : Policy) : Prop where
  mode : b.mode = a.mode
  lazyload : b.lazyload = a.lazyload
  lazyFullImages : b.lazyFullImages = a.lazyFullImages
  deferScripts : b.settings.deferScripts = a.settings.deferScripts
  allowsIndex : ∀ count, b.settings.allowsIndex count = a.settings.allowsIndex count
  lookup : ∀ url, b.lookup url = a.lookup url
  outcome : ∀ asked url,
    b.outcome (source asked (a.lookup url)) = a.outcome (source asked (a.lookup url))

section Treat

variable {source : Source} {a b : Policy} (h : a.Agrees source b)
include h

theorem candidate?_of_agrees (tag : StartTag) : candidate? b tag = candidate? a tag := by
  rw [candidate?, candidate?, h.mode]

theorem Ledger.find_of_agrees (ledger : Ledger) (asked : List Lookup) (url : Text) :
    ledger.find b source asked url = ledger.find a source asked url := by
  simp only [find, h.allowsIndex, h.lookup, h.outcome]

theorem treat_of_agrees (asked : List Lookup) (ledger : Ledger) (tag : StartTag) :
    treat b source asked ledger tag = treat a source asked ledger tag := by
  simp only [treat, candidate?_of_agrees h, Ledger.find_of_agrees h, h.lazyload]

end Treat

namespace Document

def under (policy : Policy) (doc : Document) : Document := { doc with policy }

variable {source : Source} {policy : Policy} {doc : Document}

theorem image_under (h : doc.policy.Agrees source policy) (asked : List Lookup) (tag : StartTag) :
    (doc.under policy).image source asked tag =
      ((doc.image source asked tag).1.under policy, (doc.image source asked tag).2) := by
  have htreat : treat (doc.under policy).policy source asked (doc.under policy).ledger tag =
      treat doc.policy source asked doc.ledger tag := treat_of_agrees h asked doc.ledger tag
  have hmode : (doc.under policy).policy.mode = doc.policy.mode := h.mode
  rw [image, image, htreat]
  cases (treat doc.policy source asked doc.ledger tag).treatment with
  | preview url preview =>
    dsimp only
    rw [hmode]
    rfl
  | placeholder => rfl
  | none => rfl

theorem plainTag_under (h : doc.policy.Agrees source policy) (tag : StartTag) :
    (doc.under policy).plainTag tag = (doc.plainTag tag).under policy := by
  rw [plainTag, plainTag]
  cases tag.element with
  | noscript => cases tag.selfClosing <;> rfl
  | head =>
    cases hdeferred : doc.policy.settings.deferScripts <;>
      cases hwritten : doc.written.deferHead <;>
      simp [under, pushToken, push, h.deferScripts, hdeferred, hwritten]
  | body => cases hwritten : doc.written.fallback <;> simp [under, pushToken, push, hwritten]
  | image | imageInput | other => rfl

theorem closeWindow_under (h : doc.policy.Agrees source policy) (finishing : Bool) :
    (doc.under policy).closeWindow finishing =
      ((doc.closeWindow finishing).1.under policy, (doc.closeWindow finishing).2) := by
  have hscripts : (doc.under policy).scripts finishing = doc.scripts finishing := by
    have hlazy : (doc.under policy).policy.lazyFullImages = doc.policy.lazyFullImages :=
      h.lazyFullImages
    rw [scripts, scripts, hlazy]
    rfl
  have htail : (doc.under policy).tail finishing = doc.tail finishing := by
    have hdefer : (doc.under policy).policy.settings.deferScripts =
        doc.policy.settings.deferScripts := h.deferScripts
    rw [tail, tail, hdefer]
  have hactive : (doc.under policy).isActive = doc.isActive := rfl
  rw [closeWindow, closeWindow, hscripts, htail, hactive]
  cases doc.isActive <;> rfl

theorem advance_under (h : doc.policy.Agrees source policy) (asked : List Lookup)
    (event : Event) :
    (doc.under policy).advance source asked event =
      ((doc.advance source asked event).1.under policy,
        (doc.advance source asked event).2) := by
  cases event with
  | token t =>
    cases t with
    | startTag tag =>
      have hactive : (doc.under policy).isActive = doc.isActive := rfl
      have hdepth : (doc.under policy).noscriptDepth = doc.noscriptDepth := rfl
      rw [advance, advance, startTag, startTag, hactive, hdepth]
      split
      · rfl
      · split
        · exact image_under h asked tag
        · rw [plainTag_under h]
    | endTag tag =>
      rw [advance, advance, endTag, endTag]
      split
      · rfl
      · split <;> rfl
    | text t => rfl
  | flush => exact closeWindow_under h false
  | finish =>
    rw [advance, advance, closeWindow_under h]
    rfl

theorem run_under (h : doc.policy.Agrees source policy) (asked : List Lookup)
    (events : List Event) :
    (doc.under policy).run source asked events =
      let run := doc.run source asked events
      { run with document := run.document.under policy } := by
  induction events generalizing doc asked with
  | nil => rfl
  | cons event rest ih =>
    cases hf : doc.finished with
    | true =>
      have hunder : (doc.under policy).finished = true := hf
      simp only [run, step, hf, hunder, if_true]
    | false =>
      have hunder : (doc.under policy).finished = false := hf
      have hpolicy : (doc.advance source asked event).1.policy = doc.policy :=
        (policy_advance event).1
      rw [run_cons hf, run_cons hunder]
      simp only [Moment.next, Moment.trace, advance_under h]
      rw [ih (by rw [hpolicy]; exact h)]

end Document

theorem Delivery.ofRun_under {policy : Policy} {assets others : Assets} {run : Document.Run}
    {rest more : Document → Delivery}
    (hwrite : ∀ pieces, Piece.render policy others pieces =
      Piece.render run.document.policy assets pieces)
    (hrest : more ((run.document.take assets).2.under policy) =
      rest (run.document.take assets).2) :
    ofRun others { run with document := run.document.under policy } more =
      ofRun assets run rest := by
  rw [ofRun, ofRun]
  cases run.error with
  | some error => rfl
  | none =>
    have htake : (run.document.under policy).take others =
        ((run.document.take assets).1, (run.document.take assets).2.under policy) :=
      Prod.ext (hwrite _) rfl
    simp only [htake, hrest]

namespace Document

/-- A whole document is delivered in the same way under another policy with other assets, if they
write the same. -/
theorem deliver_under {services others : Services} (hsource : others.source = services.source)
    {policy : Policy} {doc : Document} (h : doc.policy.Agrees services.source policy)
    (hwrite : ∀ pieces, Piece.render policy others.assets pieces =
      Piece.render doc.policy services.assets pieces)
    (asked : List Lookup) (windows : List Text) :
    (doc.under policy).deliver others asked windows = doc.deliver services asked windows := by
  induction windows generalizing doc asked with
  | nil =>
    rw [deliver, deliver, hsource, run_under h]
    refine Delivery.ofRun_under (fun pieces => ?_) rfl
    rw [policy_run]
    exact hwrite pieces
  | cons window rest ih =>
    rw [deliver, deliver]
    cases tokens window with
    | error fault => rfl
    | ok ts =>
      dsimp only
      rw [hsource, run_under h]
      refine Delivery.ofRun_under (fun pieces => ?_) ?_
      · rw [policy_run]
        exact hwrite pieces
      · split
        · rfl
        · refine ih ?_ ?_ _
          · rw [take, policy_run]
            exact h
          · rw [take, policy_run]
            exact hwrite

end Document
end ImagePreview

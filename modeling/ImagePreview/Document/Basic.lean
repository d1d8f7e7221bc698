import ImagePreview.Document.Buffer
import ImagePreview.Document.Event
import ImagePreview.Image.Treatment
import ImagePreview.Markup.Element

/-!
One document while it is being delivered. Tokens are written as they come, images outside of
`noscript` as they are treated, and blocks are put in where they are due.
-/
namespace ImagePreview

open Markup

structure Written where
  fallback : Bool := false
  deferHead : Bool := false
  lazyLibrary : Bool := false
  previewLibrary : Bool := false
  /-- Registrations may stand in a document more than once. -/
  registrations : Bool := false
  activation : Bool := false
deriving DecidableEq

structure Document where
  url : Text
  capability : Capability
  status : Log.Status
  policy : Policy
  ledger : Ledger := {}
  written : Written := {}
  noscriptDepth : Nat := 0
  buffer : Buffer := {}
  finished : Bool := false
deriving DecidableEq

namespace Document

/-- A document for a client. One that is to be kept as it is, or that goes to a client without
previews, is not active. -/
def start (classify : Classifier) (settings : Settings) (url client : Text) : Document :=
  let (status, capability) :=
    if settings.keepDocument then (.notApplied, .unsupported)
    else match classify client with
      | .ok capability =>
        (if capability.preview then .active else .clientUnsupported, capability)
      | .error _ => (.clientUnsupported, .unsupported)
  { url, capability, status, policy := .of settings capability }

def startTrace (doc : Document) : Trace := .ofStats ⟨Log.delayId, doc.status⟩

variable (doc : Document)

def isActive : Bool := doc.status == .active

def push (pieces : List Piece) : Document := { doc with buffer := doc.buffer.push pieces }

def pushToken (token : Token) : Document := doc.push (Piece.ofToken token)

/-- An image outside of `noscript`. The library that loads images goes before the first one that is
to be loaded by it. -/
def image (source : Source) (asked : List Lookup) (tag : StartTag) : Document × Trace :=
  let treated := treat doc.policy source asked doc.ledger tag
  let doc := { doc with ledger := treated.ledger }
  let next :=
    match treated.treatment with
    | .preview url preview =>
      { doc with
        ledger :=
          if doc.policy.mode = .scripted then doc.ledger.register url preview else doc.ledger
        buffer := (doc.buffer.push [.preview tag url preview]).markPreview }
    | .placeholder =>
      let library : List Piece := if doc.written.lazyLibrary then [] else [.block .lazyLibrary]
      { doc.push (library ++ [.placeholder tag]) with
        written := { doc.written with lazyLibrary := true } }
    | .none => doc.pushToken (.startTag tag)
  (next, treated.trace)

def plainTag (tag : StartTag) : Document :=
  let doc := doc.pushToken (.startTag tag)
  match tag.element with
  | .noscript =>
    if tag.selfClosing then doc else { doc with noscriptDepth := doc.noscriptDepth + 1 }
  | .head =>
    if doc.policy.settings.deferScripts && !doc.written.deferHead then
      { doc.push [.block .deferHead] with written := { doc.written with deferHead := true } }
    else doc
  | .body =>
    if doc.written.fallback then doc
    else
      { doc.push [.block (.fallback doc.url)] with
        written := { doc.written with fallback := true } }
  | _ => doc

def startTag (source : Source) (asked : List Lookup) (tag : StartTag) : Document × Trace :=
  if !doc.isActive then (doc.pushToken (.startTag tag), {})
  else if tag.element.isImage && doc.noscriptDepth == 0 then doc.image source asked tag
  else (doc.plainTag tag, {})

def endTag (tag : EndTag) : Document :=
  let doc :=
    if tag.isNamed "noscript".toList then { doc with noscriptDepth := doc.noscriptDepth - 1 }
    else if tag.isNamed "body".toList then { doc with buffer := doc.buffer.markBodyEnd }
    else doc
  doc.pushToken (.endTag tag)

def isDue : Bool := !doc.ledger.pending.isEmpty

def isRegistered : Bool := doc.isDue || doc.written.registrations

def scripts (finishing : Bool) : List Block :=
  (if doc.isDue && !doc.written.previewLibrary then [.previewLibrary] else []) ++
    (if doc.isDue then [.registrations doc.ledger.pending] else []) ++
    (if finishing && doc.isRegistered && !doc.written.activation then
      [.activation doc.policy.lazyFullImages]
    else [])

def trailer (finishing : Bool) : List Block :=
  if finishing && doc.written.lazyLibrary then [.lazyOverride] else []

def tail (finishing : Bool) : List Block :=
  if finishing && doc.policy.settings.deferScripts then [.deferLoader] else []

def closeWindow (finishing : Bool) : Document × Trace :=
  if !doc.isActive then ({ doc with buffer := doc.buffer.close [] [] [] }, {})
  else
    ({ doc with
        ledger := doc.ledger.settle
        written :=
          { doc.written with
            previewLibrary := doc.isDue || doc.written.previewLibrary
            registrations := doc.isRegistered
            activation := (finishing && doc.isRegistered) || doc.written.activation }
        buffer :=
          doc.buffer.close ((doc.trailer finishing).map .block)
            ((doc.scripts finishing).map .block) ((doc.tail finishing).map .block) },
      if doc.isDue then .ofRecord (.ofDelay .applied) else {})

def advance (source : Source) (asked : List Lookup) : Event → Document × Trace
  | .token (.startTag tag) => doc.startTag source asked tag
  | .token (.endTag tag) => (doc.endTag tag, {})
  | .token (.text t) => (doc.pushToken (.text t), {})
  | .flush => doc.closeWindow false
  | .finish =>
    let (closed, trace) := doc.closeWindow true
    ({ closed with finished := true }, trace)

def step (source : Source) (asked : List Lookup) (event : Event) :
    Except DocumentError (Document × Trace) :=
  if doc.finished then .error .finished else .ok (doc.advance source asked event)

def take (assets : Assets) : Text × Document :=
  (Piece.render doc.policy assets doc.buffer.take.1, { doc with buffer := doc.buffer.take.2 })

end Document
end ImagePreview

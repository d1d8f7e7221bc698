import ImagePreview.Document.Basic

/-!
Documents from the first event to the last. A run that meets an error keeps what was done
before it.
-/
namespace ImagePreview

structure Services where
  classify : Classifier
  source : Source
  assets : Assets

namespace Document

structure Run where
  document : Document
  trace : Trace := {}
  error : Option DocumentError := none

def run (source : Source) (asked : List Lookup) (doc : Document) : List Event → Run
  | [] => { document := doc }
  | event :: rest =>
    match doc.step source asked event with
    | .error error => { document := doc, error := some error }
    | .ok (next, trace) =>
      let more := run source (asked ++ trace.lookups) next rest
      { more with trace := trace ++ more.trace }

end Document

structure Delivery where
  output : Except DocumentError Text
  trace : Trace

/-- What a run delivers, with what is delivered after it, from the document without the output that
has been taken then. An error ends the delivery. -/
def Delivery.ofRun (assets : Assets) (run : Document.Run) (rest : Document → Delivery) : Delivery :=
  match run.error with
  | some error => ⟨.error error, run.trace⟩
  | none =>
    let (output, doc) := run.document.take assets
    let more := rest doc
    ⟨more.output.map (output ++ ·), run.trace ++ more.trace⟩

/-- Deliver the windows that are left. A window is read as a whole before any of it is delivered,
and flushed before the next one is read; the last one is finished. -/
def Document.deliver (services : Services) (asked : List Lookup) (doc : Document) :
    List Text → Delivery
  | [] => .ofRun services.assets (doc.run services.source asked [.finish]) fun _ => ⟨.ok [], {}⟩
  | window :: rest =>
    match Markup.tokens window with
    | .error fault => ⟨.error (.markup fault), {}⟩
    | .ok ts =>
      let closing : Event := if rest.isEmpty then .finish else .flush
      let run := doc.run services.source asked (ts.map .token ++ [closing])
      .ofRun services.assets run fun next =>
        if rest.isEmpty then ⟨.ok [], {}⟩
        else next.deliver services (asked ++ run.trace.lookups) rest

def deliver (services : Services) (settings : Settings) (url client : Text)
    (windows : List Text) : Delivery :=
  let doc := Document.start services.classify settings url client
  let delivery := doc.deliver services [] windows
  { delivery with trace := doc.startTrace ++ delivery.trace }

end ImagePreview

import ImagePreview.Document.Run

/-!
Several documents side by side. They share the source of previews and the log; each has a name and
its own state.
-/
namespace ImagePreview

open Markup

inductive Action
  /-- Start a document, in place of one of the same name if there is one. -/
  | start (url client : Text) (settings : Settings)
  | event (event : Event)
  /-- The tokens of some markup, one after another. -/
  | html (markup : Text)
  | take

inductive Reply
  | started (document : Document)
  | done
  | failed (error : DocumentError)
  | taken (output : Text)
  /-- There is no document of the name. -/
  | unknown

structure Session where
  documents : List (Text × Document) := []
  trace : Trace := {}

namespace Session

variable (session : Session) (name : Text)

def document? : Option Document := session.documents.lookup name

def update (doc : Document) (trace : Trace) : Session where
  documents := (name, doc) :: session.documents.filter fun entry => entry.1 != name
  trace := session.trace ++ trace

def feed (services : Services) (doc : Document) (events : List Event) : Session × Reply :=
  let run := doc.run services.source session.trace.lookups events
  (session.update name run.document run.trace,
    match run.error with
    | some error => .failed error
    | none => .done)

def act (services : Services) (action : Action) : Session × Reply :=
  match action, session.document? name with
  | .start url client settings, _ =>
    let doc := Document.start services.classify settings url client
    (session.update name doc doc.startTrace, .started doc)
  | _, none => (session, .unknown)
  | .event event, some doc => session.feed name services doc [event]
  | .html markup, some doc =>
    match tokens markup with
    | .error fault => (session, .failed (.markup fault))
    | .ok ts => session.feed name services doc (ts.map .token)
  | .take, some doc =>
    let (output, rest) := doc.take services.assets
    (session.update name rest {}, .taken output)

end Session
end ImagePreview

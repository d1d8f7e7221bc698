import ImagePreview.Document.Session

/-!
Documents side by side. With a source that answers each lookup in one way, what an action does
depends on nothing but the document that it is done on, and it does nothing to others; all of it is
in the trace of the session, in the order of the actions.
-/
namespace ImagePreview

open Markup

section Steady

variable {answer : Lookup → Answer}

theorem treat_steady (policy : Policy) (asked others : List Lookup) (ledger : Ledger)
    (tag : StartTag) :
    treat policy (.steady answer) asked ledger tag =
      treat policy (.steady answer) others ledger tag := rfl

theorem Document.advance_steady (doc : Document) (asked others : List Lookup) (event : Event) :
    doc.advance (.steady answer) asked event = doc.advance (.steady answer) others event := by
  cases event with
  | token t =>
    cases t with
    | startTag tag =>
      simp only [advance, startTag, image]
      rw [treat_steady doc.policy asked others]
    | endTag tag => rfl
    | text t => rfl
  | flush | finish => rfl

theorem Document.run_steady (doc : Document) (asked others : List Lookup) (events : List Event) :
    doc.run (.steady answer) asked events = doc.run (.steady answer) others events := by
  induction events generalizing doc asked others with
  | nil => rfl
  | cons event rest ih =>
    have hstep : doc.step (.steady answer) asked event = doc.step (.steady answer) others event := by
      rw [step, step, advance_steady doc asked others]
    rw [run, run, hstep]
    cases doc.step (.steady answer) others event with
    | error error => rfl
    | ok done =>
      obtain ⟨next, trace⟩ := done
      simp only [ih next (asked ++ trace.lookups) (others ++ trace.lookups)]

end Steady

namespace Action

/-- The events that a document is given. Markup with a fault gives none. -/
def events : Action → List Event
  | event e => [e]
  | html markup => ((tokens markup).toOption.getD []).map .token
  | _ => []

theorem events_html {window : Text} {ts : List Token} (h : tokens window = .ok ts) :
    (html window).events = ts.map .token := by
  rw [events, h]
  rfl

/-- What an action leaves by the document of its name alone, from its start or from the run of its
events. -/
def trace (services : Services) (asked : List Lookup) : Action → Option Document → Trace
  | start url client settings, _ =>
    (Document.start services.classify settings url client).startTrace
  | _, none => {}
  | action, some doc => (doc.run services.source asked action.events).trace

theorem trace_steady {answer : Lookup → Answer} {services : Services}
    (hsource : services.source = .steady answer) (action : Action) (asked others : List Lookup)
    (doc? : Option Document) :
    action.trace services asked doc? = action.trace services others doc? := by
  have hrun (doc : Document) (events : List Event) :
      doc.run services.source asked events = doc.run services.source others events := by
    rw [hsource, doc.run_steady]
  cases action with
  | start url client settings => rfl
  | event event | html markup | take =>
    cases doc? with
    | none => rfl
    | some doc => simp only [trace, hrun]

end Action

namespace Trace

def since (earlier later : Trace) : Trace where
  lookups := later.lookups.drop earlier.lookups.length
  log := ⟨later.log.records.drop earlier.log.records.length,
    later.log.stats.drop earlier.log.stats.length⟩

@[simp] theorem since_append (a b : Trace) : since a (a ++ b) = b := by
  ext1 <;> simp [since]

def join (traces : List Trace) : Trace := traces.foldr (· ++ ·) {}

end Trace

theorem lookup_filter {β : Type} {keeps : Text × β → Bool} {key : Text}
    (h : ∀ value, keeps (key, value) = true) (entries : List (Text × β)) :
    (entries.filter keeps).lookup key = entries.lookup key := by
  induction entries with
  | nil => rfl
  | cons entry rest ih =>
    obtain ⟨other, value⟩ := entry
    by_cases he : key = other
    · subst he
      rw [List.filter_cons_of_pos (h value), List.lookup_cons_self, List.lookup_cons_self]
    · have hb : (key == other) = false := by simpa using he
      cases hk : keeps (other, value) <;> simp [hk, List.lookup_cons, hb, ih]

namespace Session

structure Turn where
  name : Text
  action : Action
  reply : Reply
  trace : Trace

def turn (services : Services) (session : Session) (name : Text) (action : Action) : Turn where
  name := name
  action := action
  reply := (session.act name services action).2
  trace := session.trace.since (session.act name services action).1.trace

def play (services : Services) (session : Session) : List (Text × Action) → Session
  | [] => session
  | (name, action) :: rest => play services (session.act name services action).1 rest

def turns (services : Services) (session : Session) : List (Text × Action) → List Turn
  | [] => []
  | (name, action) :: rest =>
    session.turn services name action :: turns services (session.act name services action).1 rest

def changed (session : Session) (name : Text) : Option (Document × Trace) → Session
  | some (doc, trace) => session.update name doc trace
  | none => session

variable {session a b : Session} {name : Text}

theorem trace_turn_of_trace_eq {services : Services} {action : Action} {trace : Trace}
    (h : (session.act name services action).1.trace = session.trace ++ trace) :
    (session.turn services name action).trace = trace := by
  rw [turn, h]
  exact Trace.since_append _ _

/-- What comes to the trace of the session with a turn is what the action leaves by its document. -/
theorem trace_turn (services : Services) (session : Session) (name : Text) (action : Action) :
    (session.turn services name action).trace =
      action.trace services session.trace.lookups (session.document? name) := by
  apply trace_turn_of_trace_eq
  cases action with
  | start url client settings => rfl
  | event event =>
    cases hdoc : session.document? name with
    | none => simp [act, hdoc, Action.trace]
    | some doc =>
      simp only [act, hdoc]
      rfl
  | html markup =>
    cases hdoc : session.document? name with
    | none => simp [act, hdoc, Action.trace]
    | some doc =>
      cases hts : tokens markup with
      | error fault =>
        simp [act, hdoc, hts, Action.trace, Action.events, Except.toOption, Document.run]
      | ok ts =>
        simp only [act, hdoc, hts, Action.trace, Action.events_html hts]
        rfl
  | take =>
    cases hdoc : session.document? name with
    | none => simp [act, hdoc, Action.trace]
    | some doc =>
      simp only [act, hdoc]
      rfl

theorem document?_update_self (doc : Document) (trace : Trace) :
    (session.update name doc trace).document? name = some doc := by
  simp [document?, update]

theorem document?_update_of_ne {other : Text} (hne : other ≠ name) (doc : Document)
    (trace : Trace) : (session.update name doc trace).document? other = session.document? other := by
  have hb : (other == name) = false := by simpa using hne
  rw [document?, update, List.lookup_cons, hb]
  exact lookup_filter (fun document => by simpa using hne) session.documents

theorem trace_changed (session : Session) (name : Text) (change : Option (Document × Trace)) :
    (session.changed name change).trace = session.trace ++ (change.map Prod.snd).getD {} := by
  cases change with
  | none => simp [changed]
  | some change => rfl

theorem document?_changed_self (h : a.document? name = b.document? name)
    (change : Option (Document × Trace)) :
    (a.changed name change).document? name = (b.changed name change).document? name := by
  cases change with
  | none => exact h
  | some change => rw [changed, changed, document?_update_self, document?_update_self]

theorem document?_changed_of_ne {other : Text} (hne : other ≠ name)
    (change : Option (Document × Trace)) :
    (session.changed name change).document? other = session.document? other := by
  cases change with
  | none => rfl
  | some change => exact document?_update_of_ne hne ..

section Steady

variable {answer : Lookup → Answer} {services : Services}

/-- An action makes one change and has one reply wherever it meets the same document. -/
theorem act_eq (hsource : services.source = .steady answer)
    (h : a.document? name = b.document? name) (action : Action) :
    ∃ change reply, a.act name services action = (a.changed name change, reply) ∧
      b.act name services action = (b.changed name change, reply) := by
  have hrun (doc : Document) (events : List Event) :
      doc.run services.source a.trace.lookups events =
        doc.run services.source b.trace.lookups events := by
    rw [hsource, doc.run_steady]
  have hfeed (doc : Document) (events : List Event) :
      ∃ change reply, a.feed name services doc events = (a.changed name change, reply) ∧
        b.feed name services doc events = (b.changed name change, reply) := by
    refine ⟨some (_, _), _, rfl, ?_⟩
    rw [feed, ← hrun]
    rfl
  cases action with
  | start url client settings => exact ⟨some (_, _), _, rfl, rfl⟩
  | event event =>
    unfold act
    rw [h]
    cases b.document? name with
    | none => exact ⟨none, _, rfl, rfl⟩
    | some doc => exact hfeed doc [event]
  | html markup =>
    unfold act
    rw [h]
    cases b.document? name with
    | none => exact ⟨none, _, rfl, rfl⟩
    | some doc =>
      dsimp only
      cases tokens markup with
      | error fault => exact ⟨none, _, rfl, rfl⟩
      | ok ts => exact hfeed doc (ts.map .token)
  | take =>
    unfold act
    rw [h]
    cases b.document? name with
    | none => exact ⟨none, _, rfl, rfl⟩
    | some doc => exact ⟨some (_, _), _, rfl, rfl⟩

theorem turn_eq (hsource : services.source = .steady answer)
    (h : a.document? name = b.document? name) (action : Action) :
    a.turn services name action = b.turn services name action ∧
      (a.act name services action).1.document? name =
        (b.act name services action).1.document? name := by
  obtain ⟨change, reply, ha, hb⟩ := act_eq hsource h action
  rw [turn, turn, ha, hb]
  simp only [trace_changed, Trace.since_append, true_and]
  exact document?_changed_self h change

theorem document?_act_of_ne (hsource : services.source = .steady answer) {other : Text}
    (hne : other ≠ name) (action : Action) :
    (session.act name services action).1.document? other = session.document? other := by
  obtain ⟨change, reply, hact, -⟩ := @act_eq session session name _ _ hsource rfl action
  rw [hact]
  exact document?_changed_of_ne hne change

theorem trace_act (hsource : services.source = .steady answer) (name : Text) (action : Action) :
    (session.act name services action).1.trace =
      session.trace ++ (session.turn services name action).trace := by
  obtain ⟨change, reply, hact, -⟩ := @act_eq session session name _ _ hsource rfl action
  simp only [turn, hact, trace_changed, Trace.since_append]

/-- The turns of one document among those of others are its turns alone. -/
theorem turns_filter (hsource : services.source = .steady answer)
    (h : a.document? name = b.document? name) (steps : List (Text × Action)) :
    (a.turns services steps).filter (fun turn => turn.name = name) =
        b.turns services (steps.filter fun step => step.1 = name) ∧
      (a.play services steps).document? name =
        (b.play services (steps.filter fun step => step.1 = name)).document? name := by
  induction steps generalizing a b with
  | nil => exact ⟨rfl, h⟩
  | cons step rest ih =>
    obtain ⟨other, action⟩ := step
    by_cases he : other = name
    · subst he
      obtain ⟨hturn, hnext⟩ := turn_eq hsource h action
      obtain ⟨hturns, hlast⟩ := ih hnext
      have hname : (a.turn services other action).name = other := rfl
      refine ⟨?_, ?_⟩
      · rw [turns, List.filter_cons_of_pos (by simp [hname]),
          List.filter_cons_of_pos (by simp), hturns, hturn]
        rfl
      · rw [List.filter_cons_of_pos (by simp)]
        exact hlast
    · have hsame : (a.act other services action).1.document? name = b.document? name := by
        rw [document?_act_of_ne hsource (Ne.symm he), h]
      have hname : (a.turn services other action).name = other := rfl
      rw [turns, List.filter_cons_of_neg (by simpa [hname] using he),
        List.filter_cons_of_neg (by simpa using he)]
      exact ih hsame

theorem steps_turns (services : Services) (steps : List (Text × Action)) :
    ((session.turns services steps).map fun turn => (turn.name, turn.action)) = steps := by
  induction steps generalizing session with
  | nil => rfl
  | cons step rest ih =>
    rw [turns, List.map_cons, ih]
    rfl

/-- The trace of a session is what its turns add to it, one after another. -/
theorem trace_play (hsource : services.source = .steady answer) (steps : List (Text × Action)) :
    (session.play services steps).trace =
      session.trace ++ Trace.join ((session.turns services steps).map Turn.trace) := by
  induction steps generalizing session with
  | nil => exact (Trace.append_empty _).symm
  | cons step rest ih =>
    obtain ⟨name, action⟩ := step
    rw [play, ih, trace_act hsource, Trace.append_assoc]
    rfl

end Steady
end Session

/-- Documents that share a log and a source with one answer to each lookup have their turns as if each
of them were alone, and the log has all that the turns add to it, in their order. What a turn adds
to it is what the document, as it is alone, leaves when it starts or runs the events. -/
theorem documents_stay_apart (classify : Classifier) (answer : Lookup → Answer) (assets : Assets)
    (steps : List (Text × Action)) :
    let services : Services := ⟨classify, .steady answer, assets⟩
    let session : Session := {}
    ((session.turns services steps).map fun turn => (turn.name, turn.action)) = steps ∧
      (session.play services steps).trace =
        Trace.join ((session.turns services steps).map Session.Turn.trace) ∧
      ∀ name,
        let alone := steps.filter fun step => step.1 = name
        let turns := (session.turns services steps).filter fun turn => turn.name = name
        turns = session.turns services alone ∧
          (session.play services steps).document? name =
            (session.play services alone).document? name ∧
          (session.play services alone).trace = Trace.join (turns.map Session.Turn.trace) ∧
          ∀ action, ((session.play services steps).turn services name action).trace =
            action.trace services [] ((session.play services alone).document? name) := by
  intro services session
  have htrace (part : List (Text × Action)) : (session.play services part).trace =
      Trace.join ((session.turns services part).map Session.Turn.trace) := by
    rw [Session.trace_play rfl]
    exact Trace.empty_append _
  refine ⟨Session.steps_turns services steps, htrace steps, fun name => ?_⟩
  obtain ⟨hturns, hlast⟩ := @Session.turns_filter session session name _ services rfl rfl steps
  refine ⟨hturns, hlast, ?_, fun action => ?_⟩
  · rw [hturns]
    exact htrace _
  · rw [Session.trace_turn, ← hlast]
    exact Action.trace_steady rfl action _ [] _

end ImagePreview

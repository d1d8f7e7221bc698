import ImagePreview.Proofs.Document.Apart
import ImagePreview.Proofs.Document.Depth
import ImagePreview.Proofs.Document.Inactive

/-!
Documents that are not active, as a session sees them. Whenever their output is taken, their events
come out as they went in, and besides that they were started nothing is logged or looked up.
-/
namespace ImagePreview

open Markup

def Action.isStart : Action → Bool
  | start .. => true
  | _ => false

def Reply.output : Reply → Text
  | taken output => output
  | _ => []

def Event.before (finished : Bool) (events : List Event) : List Event :=
  if finished then [] else events.takeWhile fun event => event ≠ .finish

theorem Event.before_append (finished : Bool) (a b : List Event) :
    before finished (a ++ b) =
      before finished a ++ before (finished || a.contains .finish) b := by
  induction a with
  | nil => cases finished <;> simp [before]
  | cons event a ih =>
    cases finished with
    | true => simp [before]
    | false =>
      by_cases he : event = .finish
      · simp [before, he]
      · simpa [before, he, Ne.symm he] using ih

namespace Document

/-- A document that is not active and still has this text to hand out. -/
structure Holds (assets : Assets) (doc : Document) (text : Text) : Prop where
  inactive : doc.isActive = false
  text : Piece.render doc.policy assets (doc.buffer.closed ++ doc.buffer.window) = text
  final : doc.finished = true → doc.buffer.window = []

variable {assets : Assets} {doc : Document} {text : Text}

theorem Fresh.holds (h : doc.Fresh) (hi : doc.isActive = false) : doc.Holds assets [] where
  inactive := hi
  text := by rw [h.buffer]; rfl
  final _ := by rw [h.buffer]

namespace Holds

theorem next (source : Source) {m : Moment} (h : m.document.Holds assets text)
    (hf : m.document.finished = false) :
    (m.next source).Holds assets (text ++ m.event.write) ∧ m.trace source = {} ∧
      (m.next source).finished = decide (m.event = .finish) := by
  rw [Moment.next, Moment.trace]
  obtain ⟨t, ht⟩ | hc := m.event.token_or_closes
  · obtain ⟨depth, mark, hadvance⟩ :=
      @advance_token_of_inactive _ source m.asked h.inactive t
    rw [ht, hadvance]
    refine ⟨⟨h.inactive, ?_, fun hend => ?_⟩, rfl, hf⟩
    · rw [← List.append_assoc, Piece.render_append, Piece.render_ofToken, h.text]
      rfl
    · exact absurd (hend.symm.trans hf) (by decide)
  · have hwrite : m.event.write = [] := by
      cases he : m.event with
      | token t => rw [he] at hc; contradiction
      | flush | finish => rfl
    rw [advance_closes_of_inactive h.inactive hc, hwrite, List.append_nil]
    refine ⟨⟨h.inactive, ?_, fun _ => rfl⟩, rfl, ?_⟩
    · rw [List.append_nil]
      exact h.text
    · simp [hf]

theorem run (source : Source) (h : doc.Holds assets text) (asked : List Lookup)
    (events : List Event) :
    let run := doc.run source asked events
    run.document.Holds assets (text ++ (Event.before doc.finished events).flatMap Event.write) ∧
      run.trace = {} ∧
      run.document.finished = (doc.finished || events.contains .finish) := by
  induction events generalizing doc text asked with
  | nil => simpa [Document.run, Event.before] using h
  | cons event rest ih =>
    cases hf : doc.finished with
    | true =>
      obtain ⟨hdoc, htrace⟩ := @run_of_finished source asked doc hf (event :: rest)
      simp only [hdoc, htrace, hf, Event.before]
      simpa using h
    | false =>
      let m : Moment := ⟨doc, asked, event⟩
      obtain ⟨hnext, htrace, hfinished⟩ := next source (m := m) h hf
      obtain ⟨hrest, hlater, hend⟩ := ih hnext (asked ++ (m.trace source).lookups)
      have hone : (Event.before false [event]).flatMap Event.write = event.write := by
        cases event <;> simp [Event.before, Event.write]
      have hends : [event].contains .finish = decide (event = .finish) := by
        simp [eq_comm]
      have hcontains : (event :: rest).contains .finish =
          (decide (event = .finish) || rest.contains .finish) := by
        simp [eq_comm]
      rw [run_cons hf, ← List.singleton_append, Event.before_append, List.flatMap_append, hone,
        List.singleton_append, hends, hcontains, Bool.false_or, Bool.false_or, ← List.append_assoc]
      rw [hfinished] at hrest hend
      have hnone : m.trace source ++ _ = ({} : Trace) :=
        (congrArg (· ++ _) htrace).trans ((Trace.empty_append _).trans hlater)
      exact ⟨hrest, hnone, hend⟩

theorem take (h : doc.Holds assets text) :
    ∃ rest, (doc.take assets).2.Holds assets rest ∧ (doc.take assets).1 ++ rest = text ∧
      (doc.finished = true → rest = []) := by
  refine ⟨Piece.render doc.policy assets doc.buffer.window, ⟨h.inactive, rfl, h.final⟩, ?_,
    fun hend => by rw [h.final hend]; rfl⟩
  rw [← h.text, Piece.render_append]
  rfl

end Holds
end Document

namespace Session

variable {services : Services} {session : Session} {name : Text}

def Holds (services : Services) (session : Session) (name text : Text) (finished : Bool) : Prop :=
  ∃ doc, session.document? name = some doc ∧ doc.Holds services.assets text ∧
    doc.finished = finished

theorem output_feed (doc : Document) (events : List Event) :
    (session.feed name services doc events).2.output = [] := by
  rw [feed]
  dsimp only
  split <;> rfl

theorem act_take {doc : Document} (hdoc : session.document? name = some doc) :
    session.act name services .take =
      (session.update name (doc.take services.assets).2 {},
        .taken (doc.take services.assets).1) := by
  simp only [act, hdoc]

/-- An action hands out the beginning of the text, and the events that it gives come behind it. -/
theorem Holds.act {text : Text} {finished : Bool} (h : session.Holds services name text finished)
    (action : Action) (hstart : action.isStart = false) :
    let done := session.act name services action
    done.1.trace = session.trace ∧
      ∃ rest, done.1.Holds services name rest (finished || action.events.contains .finish) ∧
        done.2.output ++ rest =
          text ++ (Event.before finished action.events).flatMap Event.write := by
  obtain ⟨doc, hdoc, hholds, rfl⟩ := h
  have hfeed (events : List Event) :
      let done := session.feed name services doc events
      done.1.trace = session.trace ∧
        ∃ rest, done.1.Holds services name rest (doc.finished || events.contains .finish) ∧
          done.2.output ++ rest =
            text ++ (Event.before doc.finished events).flatMap Event.write := by
    obtain ⟨hrun, htrace, hend⟩ :=
      hholds.run services.source session.trace.lookups events
    refine ⟨?_, _, ⟨_, document?_update_self _ _, hrun, hend⟩, ?_⟩
    · exact (congrArg (session.trace ++ ·) htrace).trans (Trace.append_empty _)
    · rw [output_feed, List.nil_append]
  cases action with
  | start url client settings => contradiction
  | event event =>
    have hact : session.act name services (.event event) =
        session.feed name services doc [event] := by
      simp only [Session.act, hdoc]
    rw [hact]
    exact hfeed [event]
  | html markup =>
    cases hts : tokens markup with
    | error fault =>
      have hact : session.act name services (.html markup) =
          (session, .failed (.markup fault)) := by
        simp only [Session.act, hdoc, hts]
      have hnone : (Action.html markup).events = [] := by rw [Action.events, hts]; rfl
      rw [hact, hnone]
      refine ⟨rfl, text, ⟨doc, hdoc, hholds, ?_⟩, ?_⟩
      · simp
      · simp [Reply.output, Event.before]
    | ok ts =>
      have hact : session.act name services (.html markup) =
          session.feed name services doc (ts.map .token) := by
        simp only [Session.act, hdoc, hts]
      rw [hact, Action.events_html hts]
      exact hfeed (ts.map .token)
  | take =>
    obtain ⟨rest, hrest, htext, -⟩ := hholds.take
    rw [act_take hdoc]
    refine ⟨Trace.append_empty _, rest, ⟨_, document?_update_self _ _, hrest, ?_⟩, ?_⟩
    · simp [Action.events, Document.take]
    · simpa [Action.events, Event.before, Reply.output] using htext

/-- What turns hand out is what the events before the end of the document write, up to what is left
at the end. -/
theorem Holds.turns {text : Text} {finished : Bool} (h : session.Holds services name text finished)
    {actions : List Action} (hstart : ∀ action ∈ actions, action.isStart = false) :
    let steps := actions.map (name, ·)
    let events := actions.flatMap Action.events
    (session.turns services steps).map Turn.trace = List.replicate actions.length {} ∧
      (session.play services steps).trace = session.trace ∧
      ∃ rest, (session.play services steps).Holds services name rest
          (finished || events.contains .finish) ∧
        (session.turns services steps).flatMap (fun turn => turn.reply.output) ++ rest =
          text ++ (Event.before finished events).flatMap Event.write := by
  induction actions generalizing session text finished with
  | nil => exact ⟨rfl, rfl, text, by simpa [play] using h, by simp [Session.turns, Event.before]⟩
  | cons action actions ih =>
    obtain ⟨htrace, rest, hrest, htext⟩ := h.act action (hstart action List.mem_cons_self)
    obtain ⟨htraces, hplay, last, hlast, htexts⟩ :=
      ih hrest fun a ha => hstart a (List.mem_cons_of_mem action ha)
    have hturn : (session.turn services name action).trace = {} :=
      trace_turn_of_trace_eq (htrace.trans (Trace.append_empty _).symm)
    refine ⟨?_, hplay.trans htrace, last, ?_, ?_⟩
    · rw [List.map_cons, Session.turns, List.map_cons, htraces, hturn]
      rfl
    · simpa [play, Bool.or_assoc] using hlast
    · have hreply : (session.turn services name action).reply =
          (session.act name services action).2 := rfl
      rw [List.map_cons, Session.turns, List.flatMap_cons, List.flatMap_cons, List.append_assoc,
        htexts, hreply, ← List.append_assoc, htext, Event.before_append, List.flatMap_append,
        List.append_assoc]

theorem Holds.last {text : Text} (h : session.Holds services name text true) :
    (session.act name services .take).2.output = text := by
  obtain ⟨doc, hdoc, hholds, hend⟩ := h
  obtain ⟨rest, -, htext, hnone⟩ := hholds.take
  rw [hnone hend, List.append_nil] at htext
  rw [act_take hdoc]
  exact htext

theorem turns_append (services : Services) (session : Session) (a b : List (Text × Action)) :
    session.turns services (a ++ b) =
        session.turns services a ++ (session.play services a).turns services b ∧
      session.play services (a ++ b) = (session.play services a).play services b := by
  induction a generalizing session with
  | nil => exact ⟨rfl, rfl⟩
  | cons step a ih =>
    obtain ⟨name, action⟩ := step
    obtain ⟨hturns, hplay⟩ := ih (session.act name services action).1
    exact ⟨congrArg (_ :: ·) hturns, hplay⟩

theorem Holds.delivered {text : Text} (h : session.Holds services name text false)
    {actions : List Action} (hstart : ∀ action ∈ actions, action.isStart = false) :
    let steps := (actions ++ [Action.event .finish, Action.take]).map (name, ·)
    (session.turns services steps).flatMap (fun turn => turn.reply.output) =
        text ++ ((actions.flatMap Action.events).takeWhile fun event => event ≠ .finish).flatMap
          Event.write ∧
      (session.turns services steps).map Turn.trace = List.replicate (actions.length + 2) {} ∧
      (session.play services steps).trace = session.trace := by
  intro steps
  obtain ⟨front, hfrontEq⟩ : ∃ front, front = actions ++ [Action.event .finish] := ⟨_, rfl⟩
  have hfront : ∀ action ∈ front, action.isStart = false := by
    intro action haction
    rw [hfrontEq] at haction
    rcases List.mem_append.mp haction with h | h
    · exact hstart action h
    · rw [List.mem_singleton.mp h]
      rfl
  have hevents : front.flatMap Action.events = actions.flatMap Action.events ++ [.finish] := by
    simp [hfrontEq, Action.events]
  obtain ⟨htraces, hplay, rest, hrest, htext⟩ := h.turns hfront
  rw [hevents] at hrest htext
  have hend : (false || (actions.flatMap Action.events ++ [Event.finish]).contains .finish) =
      true := by
    simp
  rw [hend] at hrest
  obtain ⟨htake, -⟩ := hrest.act .take rfl
  obtain ⟨hturns, hlater⟩ :=
    turns_append services session (front.map (name, ·)) [(name, .take)]
  have hsteps : steps = front.map (name, ·) ++ [(name, .take)] := by
    simp [steps, hfrontEq]
  rw [hsteps, hturns, hlater, List.flatMap_append, List.map_append, htraces]
  refine ⟨?_, ?_, htake.trans hplay⟩
  · have hlast : ((session.play services (front.map (name, ·))).turns services
        [(name, .take)]).flatMap (fun turn => turn.reply.output) = rest := by
      simpa [Session.turns, turn] using hrest.last
    rw [hlast, htext, Event.before_append]
    simp [Event.before]
  · have hlast := trace_turn_of_trace_eq (htake.trans (Trace.append_empty _).symm)
    simp only [Session.turns, List.map_cons, List.map_nil, hlast]
    simp [hfrontEq, List.replicate_succ']

end Session

/-- A document that is to be kept, or that goes to a client without previews or an unknown one,
comes out as it went in, however its output is taken. Its source is asked for nothing, and the log
has nothing but its one line of statistics, from when it was started. -/
theorem inactive_passes_through (services : Services) (session : Session)
    (name url client : Text) (settings : Settings) (actions : List Action)
    (hinactive : settings.keepDocument = true ∨
      ∀ capability, services.classify client = .ok capability → capability.preview = false)
    (hstart : ∀ action ∈ actions, action.isStart = false) :
    let steps := (name, .start url client settings) ::
      (actions ++ [Action.event .finish, Action.take]).map (name, ·)
    let turns := session.turns services steps
    let stats : Log.Stats :=
      ⟨Log.delayId, if settings.keepDocument then .notApplied else .clientUnsupported⟩
    turns.flatMap (fun turn => turn.reply.output) =
        ((actions.flatMap Action.events).takeWhile fun event => event ≠ .finish).flatMap
          Event.write ∧
      turns.map Session.Turn.trace =
        .ofStats stats :: List.replicate (actions.length + 2) {} ∧
      (session.play services steps).trace = session.trace ++ .ofStats stats := by
  intro steps turns stats
  let doc := Document.start services.classify settings url client
  have hstatus : doc.status = stats.status ∧ doc.isActive = false := by
    simp only [doc, stats, Document.isActive, Document.start]
    rcases hinactive with hkeep | hclient
    · simp [hkeep]
    · cases hkeep : settings.keepDocument with
      | true => simp
      | false =>
        cases hc : services.classify client with
        | ok capability => simp [hclient capability hc]
        | error fault => simp
  let started := session.update name doc doc.startTrace
  have hheld : started.Holds services name [] false :=
    ⟨doc, Session.document?_update_self _ _, (Document.fresh_start ..).holds hstatus.2, rfl⟩
  obtain ⟨htext, htraces, hplay⟩ := hheld.delivered hstart
  have htrace : started.trace = session.trace ++ .ofStats stats :=
    congrArg (fun status => session.trace ++ Trace.ofStats ⟨Log.delayId, status⟩) hstatus.1
  have hfirst : (session.turn services name (.start url client settings)).trace =
      .ofStats stats := Session.trace_turn_of_trace_eq htrace
  refine ⟨htext, ?_, hplay.trans htrace⟩
  exact congrArg₂ _ hfirst htraces

def Sample.actions : List Action :=
  [.event (image "a".toList), .take, .event .flush, .take, .html "<noscript>b</noscript>".toList]

theorem sample_inactive_passes_through :
    let services : Services := ⟨Markers.usual.classifier, Sample.source, .usual⟩
    let session : Session := {}
    let client := "Googlebot".toList
    let steps := ([], Action.start [] client Sample.settings) ::
      (Sample.actions ++ [Action.event .finish, Action.take]).map (([] : Text), ·)
    (Sample.settings.keepDocument = true ∨ ∀ capability,
        services.classify client = .ok capability → capability.preview = false) ∧
      (∀ action ∈ Sample.actions, action.isStart = false) ∧
      (session.turns services steps).flatMap (fun turn => turn.reply.output) =
        "<img src=\"a\"><noscript>b</noscript>".toList ∧
      (session.turns services steps).map Session.Turn.trace =
        .ofStats ⟨Log.delayId, .clientUnsupported⟩ :: List.replicate 7 {} ∧
      (session.play services steps).trace = .ofStats ⟨Log.delayId, .clientUnsupported⟩ := by
  intro services session client steps
  have hclient : ∀ capability,
      services.classify client = .ok capability → capability.preview = false := by
    intro capability hc
    rw [← Except.ok.inj hc]
    decide
  have hstart : ∀ action ∈ Sample.actions, action.isStart = false := by decide
  obtain ⟨htext, htraces, hplay⟩ := inactive_passes_through services session [] [] client
    Sample.settings Sample.actions (Or.inr hclient) hstart
  refine ⟨Or.inr hclient, hstart, htext.trans (by decide +kernel), htraces, ?_⟩
  exact hplay.trans (Trace.empty_append _)

end ImagePreview

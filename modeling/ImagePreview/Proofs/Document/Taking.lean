import ImagePreview.Proofs.Document.Parts
import ImagePreview.Proofs.Document.PassThrough

/-!
Output that is taken while a document goes on. Whenever it is taken, what has been taken and what is
left make up the run of the events so far; so what is taken altogether is the final output of that
run, and a document that arrives in windows is delivered as the run of their tokens.
-/
namespace ImagePreview

open Markup

namespace Document

def Run.output (assets : Assets) (run : Run) : Text := (run.document.take assets).1

/-- Nothing becomes final but at the end of a window. -/
theorem output_run_of_tokens {source : Source} {asked : List Lookup} {assets : Assets}
    {doc : Document} (a : List Event) {b : List Event} (h : ∀ event ∈ b, event.closes = false) :
    (doc.run source asked (a ++ b)).output assets = (doc.run source asked a).output assets := by
  simp only [run_append, Run.output, take, Buffer.take, closed_run_of_tokens h, policy_run]

/-- The document is what is left of a run after this output has been taken from it. -/
structure Run.Leaves (assets : Assets) (run : Run) (taken : Text) (rest : Document) : Prop where
  split : ∃ front, rest.untake front = run.document ∧ Piece.render rest.policy assets front = taken

section Leaves

variable {source : Source} {asked : List Lookup} {assets : Assets} {whole : Run} {taken : Text}
  {doc rest : Document}

theorem Run.leaves_self (assets : Assets) (run : Run) : run.Leaves assets [] run.document :=
  ⟨[], rfl, rfl⟩

theorem Run.leaves_take (assets : Assets) (run : Run) :
    run.Leaves assets (run.output assets) (run.document.take assets).2 :=
  ⟨run.document.buffer.closed, untake_take assets, rfl⟩

namespace Run.Leaves

theorem finished (h : whole.Leaves assets taken rest) :
    rest.finished = whole.document.finished := by
  obtain ⟨front, hwhole, -⟩ := h
  rw [← hwhole]
  rfl

theorem policy (h : whole.Leaves assets taken rest) : rest.policy = whole.document.policy := by
  obtain ⟨front, hwhole, -⟩ := h
  rw [← hwhole]
  rfl

theorem output (h : whole.Leaves assets taken rest) :
    whole.output assets = taken ++ (rest.take assets).1 := by
  obtain ⟨front, hwhole, rfl⟩ := h
  rw [Run.output, ← hwhole]
  exact Piece.render_append ..

theorem settled (h : whole.Leaves assets taken rest)
    (hfinal : whole.document.buffer = { closed := whole.document.buffer.closed }) :
    (rest.take assets).2.buffer = {} := by
  obtain ⟨front, hwhole, -⟩ := h
  rw [← hwhole] at hfinal
  have hwindow : rest.buffer.window = [] := congrArg Buffer.window hfinal
  have hbody : rest.buffer.bodyEnd = none := congrArg Buffer.bodyEnd hfinal
  have hpreview : rest.buffer.previewEnd = none := congrArg Buffer.previewEnd hfinal
  simp [take, Buffer.take, hwindow, hbody, hpreview]

/-- What is left goes on as the document would have. -/
theorem append {a b : List Event} {more : Text} {last : Document}
    (h : (doc.run source asked a).Leaves assets taken rest)
    (hmore : (rest.run source (asked ++ (doc.run source asked a).trace.lookups) b).Leaves assets
      more last) :
    (doc.run source asked (a ++ b)).Leaves assets (taken ++ more) last := by
  have hpolicy : last.policy = rest.policy := hmore.policy.trans (policy_run b)
  obtain ⟨front, hfront, rfl⟩ := h
  obtain ⟨behind, hbehind, rfl⟩ := hmore
  refine ⟨front ++ behind, ?_, ?_⟩
  · simp only [run_append, ← hfront, run_untake, ← hbehind]
    simp [untake]
  · rw [Piece.render_append, hpolicy]

theorem run {a : List Event} (h : (doc.run source asked a).Leaves assets taken rest)
    (b : List Event) :
    let more := rest.run source (asked ++ (doc.run source asked a).trace.lookups) b
    (doc.run source asked (a ++ b)).output assets = taken ++ more.output assets ∧
      (doc.run source asked (a ++ b)).trace = (doc.run source asked a).trace ++ more.trace := by
  intro more
  refine ⟨(h.append (more.leaves_take assets)).output.trans ?_, ?_⟩
  · exact List.append_nil _
  · obtain ⟨front, hfront, -⟩ := h
    simp only [run_append, ← hfront, run_untake, more]

end Run.Leaves
end Leaves
end Document

namespace Session

variable {services : Services} {session : Session} {name : Text} {doc : Document}

theorem act_of_events (hdoc : session.document? name = some doc) {action : Action}
    (hevents : action.events ≠ []) :
    session.act name services action = session.feed name services doc action.events := by
  cases action with
  | start url client settings => exact absurd rfl hevents
  | event event => simp only [act, hdoc, Action.events]
  | html markup =>
    cases hts : tokens markup with
    | error fault => exact absurd (by rw [Action.events, hts]; rfl) hevents
    | ok ts => simp [act, hdoc, Action.events, hts, Except.toOption]
  | take => exact absurd rfl hevents

/-- An action runs the events that it gives, and hands out some of the output. -/
theorem act_leaves (services : Services) (hdoc : session.document? name = some doc)
    {action : Action} (hstart : action.isStart = false) :
    let run := doc.run services.source session.trace.lookups action.events
    let done := session.act name services action
    ∃ rest, done.1.document? name = some rest ∧
      run.Leaves services.assets done.2.output rest ∧
      done.1.trace = session.trace ++ run.trace := by
  intro run done
  have hfed (events : List Event) (hact : done = session.feed name services doc events)
      (hevents : action.events = events) :
      ∃ rest, done.1.document? name = some rest ∧
        run.Leaves services.assets done.2.output rest ∧
        done.1.trace = session.trace ++ run.trace := by
    subst hevents
    rw [hact, output_feed]
    exact ⟨run.document, document?_update_self _ _, run.leaves_self _, rfl⟩
  cases action with
  | start url client settings => contradiction
  | event event => exact hfed [event] (by simp only [done, act, hdoc]) rfl
  | html markup =>
    cases hts : tokens markup with
    | error fault =>
      have hdone : done = (session, .failed (.markup fault)) := by
        simp only [done, act, hdoc, hts]
      have hrun : run = { document := doc } := by
        simp only [run, Action.events, hts]
        rfl
      rw [hdone, hrun]
      exact ⟨doc, hdoc, Document.Run.leaves_self .., (Trace.append_empty _).symm⟩
    | ok ts =>
      exact hfed (ts.map .token) (by simp only [done, act, hdoc, hts]) (Action.events_html hts)
  | take =>
    simp only [done]
    rw [act_take hdoc]
    exact ⟨_, document?_update_self _ _, run.leaves_take _, rfl⟩

def taken (services : Services) (session : Session) (name : Text) (actions : List Action) : Text :=
  (session.turns services (actions.map (name, ·))).flatMap fun turn => turn.reply.output

theorem taken_cons (action : Action) (actions : List Action) :
    session.taken services name (action :: actions) =
      (session.act name services action).2.output ++
        (session.act name services action).1.taken services name actions := by
  rw [taken, List.map_cons, turns, List.flatMap_cons]
  rfl

/-- However output is taken, it is taken from the run of the events. -/
theorem play_leaves (services : Services) (hdoc : session.document? name = some doc)
    {actions : List Action} (hstart : ∀ action ∈ actions, action.isStart = false) :
    let run := doc.run services.source session.trace.lookups (actions.flatMap Action.events)
    let last := session.play services (actions.map (name, ·))
    ∃ rest, last.document? name = some rest ∧
      run.Leaves services.assets (session.taken services name actions) rest ∧
      last.trace = session.trace ++ run.trace := by
  induction actions generalizing session doc with
  | nil => exact ⟨doc, hdoc, Document.Run.leaves_self .., (Trace.append_empty _).symm⟩
  | cons action actions ih =>
    obtain ⟨haction, hactions⟩ := List.forall_mem_cons.mp hstart
    obtain ⟨next, hnext, hleaves, htrace⟩ := act_leaves services hdoc haction
    -- the other actions go on with what the first one leaves, after the lookups of its run
    obtain ⟨rest, hrest, hlater, hlast⟩ := ih hnext hactions
    rw [htrace, Trace.lookups_append] at hlater hlast
    refine ⟨rest, hrest, ?_, ?_⟩
    · rw [taken_cons, List.flatMap_cons]
      exact hleaves.append hlater
    · rw [List.map_cons, play, hlast, List.flatMap_cons, (hleaves.run _).2, Trace.append_assoc]

theorem taken_append (a b : List Action) :
    session.taken services name (a ++ b) =
      session.taken services name a ++
        (session.play services (a.map (name, ·))).taken services name b := by
  rw [taken, List.map_append, (turns_append services session _ _).1, List.flatMap_append]
  rfl

theorem taken_concat_take (services : Services) (hdoc : session.document? name = some doc)
    {actions : List Action} (hstart : ∀ action ∈ actions, action.isStart = false) :
    session.taken services name (actions ++ [.take]) =
      (doc.run services.source session.trace.lookups (actions.flatMap Action.events)).output
        services.assets := by
  obtain ⟨rest, hrest, hleaves, -⟩ := play_leaves services hdoc hstart
  rw [taken_append, hleaves.output, taken_cons, act_take hrest]
  simp [taken, turns, Reply.output]

end Session

/-- The events of windows that are flushed one after another, and finished behind the last one. -/
def Event.ofWindows (windows : List Text) : List Event :=
  List.intercalate [.flush] (windows.map fun window => (Action.html window).events) ++ [.finish]

theorem Event.ofWindows_cons (window next : Text) (windows : List Text) :
    ofWindows (window :: next :: windows) =
      (Action.html window).events ++ [.flush] ++ ofWindows (next :: windows) := by
  simp [ofWindows]

namespace Document

variable {services : Services} {asked : List Lookup} {doc : Document}

theorem error_run_concat {source : Source} (hf : doc.finished = false) (ts : List Token)
    (event : Event) : (doc.run source asked (ts.map .token ++ [event])).error = none := by
  have hnot : Event.finish ∉ ts.map .token := by simp
  have hfirst : (doc.run source asked (ts.map .token)).document.finished = false := by
    rw [finished_run, hf]
    simp
  simp only [run_append, error_run hf hnot, run_singleton hfirst]
  rfl

theorem ofRun_last {assets : Assets} {run : Run} (h : run.error = none) :
    Delivery.ofRun assets run (fun _ => ⟨.ok [], {}⟩) = ⟨.ok (run.output assets), run.trace⟩ := by
  rw [Delivery.ofRun, h]
  simp [Run.output, Except.map]

theorem deliver_cons {window : Text} {windows : List Text} {ts : List Token}
    (hts : tokens window = .ok ts) (hmore : windows ≠ []) (hf : doc.finished = false) :
    let run := doc.run services.source asked ((Action.html window).events ++ [.flush])
    let more := (run.document.take services.assets).2.deliver services
      (asked ++ run.trace.lookups) windows
    doc.deliver services asked (window :: windows) =
      ⟨more.output.map (run.output services.assets ++ ·), run.trace ++ more.trace⟩ := by
  rw [Action.events_html hts]
  intro run more
  have herror : run.error = none := error_run_concat hf ts .flush
  have hsome : windows.isEmpty = false := by simpa using hmore
  rw [deliver]
  simp only [hts, hsome, Bool.false_eq_true, if_false]
  rw [Delivery.ofRun, herror]
  rfl

theorem finished_rest_window {window : Text} {ts : List Token} (hts : tokens window = .ok ts)
    (hf : doc.finished = false) :
    let run := doc.run services.source asked ((Action.html window).events ++ [.flush])
    (run.document.take services.assets).2.finished = false := by
  intro run
  rw [(run.leaves_take services.assets).finished, finished_run, hf, Action.events_html hts]
  simp

/-- Windows that are all read are delivered as the run of their events. -/
theorem deliver_of_tokens (services : Services) (asked : List Lookup)
    (hf : doc.finished = false) {windows : List Text}
    (hread : ∀ window ∈ windows, ∃ ts, tokens window = .ok ts) :
    let run := doc.run services.source asked (Event.ofWindows windows)
    doc.deliver services asked windows = ⟨.ok (run.output services.assets), run.trace⟩ := by
  induction windows generalizing doc asked with
  | nil =>
    have hlast : Event.ofWindows [] = [].map .token ++ [.finish] := rfl
    rw [deliver, hlast]
    exact ofRun_last (error_run_concat hf [] .finish)
  | cons window windows ih =>
    obtain ⟨⟨ts, hts⟩, hlater⟩ := List.forall_mem_cons.mp hread
    cases windows with
    | nil =>
      have hlast : Event.ofWindows [window] = ts.map .token ++ [.finish] := by
        simp [Event.ofWindows, Action.events_html hts]
      rw [deliver, hlast]
      simp only [hts, List.isEmpty_nil, if_true]
      exact ofRun_last (error_run_concat hf ts .finish)
    | cons next windows =>
      let first := doc.run services.source asked ((Action.html window).events ++ [.flush])
      have hleaves := first.leaves_take services.assets
      have hopen : (first.document.take services.assets).2.finished = false :=
        finished_rest_window hts hf
      obtain ⟨hout, htrace⟩ := hleaves.run (Event.ofWindows (next :: windows))
      rw [Event.ofWindows_cons, deliver_cons hts (List.cons_ne_nil _ _) hf, ih _ hopen hlater]
      simp only [hout, htrace]
      rfl

end Document

/-- However the output of a document is taken, all that is taken up to a last take is the final
output of its events, and all that is taken before is the beginning of whatever its final output
becomes. With the end of a window everything becomes final, and with other events nothing does. A
document that is delivered in windows is the same as one whose windows are flushed and taken. -/
theorem taken_is_final (services : Services) (session : Session) (name url client : Text)
    (settings : Settings) (actions : List Action)
    (hstart : ∀ action ∈ actions, action.isStart = false) :
    let doc := Document.start services.classify settings url client
    let begun := (session.act name services (.start url client settings)).1
    let played := fun actions : List Action => begun.play services (actions.map (name, ·))
    let taken := begun.taken services name
    let events := actions.flatMap Action.events
    let final := fun events =>
      (doc.run services.source session.trace.lookups events).output services.assets
    taken (actions ++ [.take]) = final events ∧
      (∀ others : List Action, (∀ action ∈ others, action.isStart = false) →
        others.flatMap Action.events = events →
          taken (others ++ [.take]) = taken (actions ++ [.take])) ∧
      (∀ later, taken actions <+: final (events ++ later)) ∧
      (∀ event : Event, event.closes = true → ∃ last,
        (played (actions ++ [.event event, .take])).document? name = some last ∧
          last.buffer = {}) ∧
      (∀ action : Action, action.isStart = false →
        (∀ event ∈ action.events, event.closes = false) →
          taken (actions ++ [action, .take]) = taken (actions ++ [.take])) ∧
      ∀ windows : List Text, session.trace.lookups = [] →
        (∀ window ∈ windows, ∃ ts, tokens window = .ok ts) → events = Event.ofWindows windows →
          (deliver services settings url client windows).output =
            .ok (taken (actions ++ [.take])) := by
  intro doc begun played taken events final
  have hdoc : begun.document? name = some doc := Session.document?_update_self _ _
  have hlookups : begun.trace.lookups = session.trace.lookups := List.append_nil _
  have hall {actions : List Action} (h : ∀ action ∈ actions, action.isStart = false) :
      taken (actions ++ [.take]) = final (actions.flatMap Action.events) := by
    have htaken := Session.taken_concat_take services hdoc h
    rwa [hlookups] at htaken
  have hmore (action : Action) (h : action.isStart = false) :
      ∀ x ∈ actions ++ [action], x.isStart = false :=
    List.forall_mem_append.mpr ⟨hstart, List.forall_mem_singleton.mpr h⟩
  refine ⟨hall hstart, fun others hothers hsame => ?_, fun later => ?_, fun event hc => ?_,
    fun action haction htokens => ?_, fun windows hnone hread hevents => ?_⟩
  · rw [hall hothers, hsame, hall hstart]
  · obtain ⟨rest, -, hleaves, -⟩ := Session.play_leaves services hdoc hstart
    rw [hlookups] at hleaves
    exact ⟨_, (hleaves.run later).1.symm⟩
  · obtain ⟨rest, hrest, hleaves, -⟩ :=
      Session.play_leaves services hdoc (hmore (.event event) rfl)
    have hfresh : doc.Settled := fun hf => absurd hf Bool.false_ne_true
    have hsplit : actions ++ [.event event, .take] = actions ++ [.event event] ++ [.take] := by simp
    have hlast : played (actions ++ [.event event, .take]) =
        ((played (actions ++ [.event event])).act name services .take).1 := by
      simp only [played]
      rw [hsplit, List.map_append, (Session.turns_append services begun _ _).2]
      rfl
    refine ⟨_, by rw [hlast, Session.act_take hrest]; exact Session.document?_update_self _ _, ?_⟩
    refine hleaves.settled ?_
    rw [List.flatMap_append, Document.run_append]
    exact (hfresh.run _).run_closes hc
  · have hsplit : actions ++ [action, .take] = actions ++ [action] ++ [.take] := by simp
    rw [hsplit, hall (hmore action haction), hall hstart, List.flatMap_append,
      List.flatMap_singleton]
    exact Document.output_run_of_tokens _ htokens
  · have hopen : doc.finished = false := rfl
    have hdelivered := Document.deliver_of_tokens services [] hopen hread
    rw [hall hstart, deliver, hdelivered, ← hnone, ← hevents]

namespace Sample

def windows : List Text := ["<body><img src=\"a\">".toList, "</body>".toList]

def eager : List Action :=
  [.html "<body>".toList, .take, .html "<img src=\"a\">".toList, .event .flush, .take,
    .html "</body>".toList, .event .finish]

end Sample

theorem sample_taken_is_final :
    let services : Services := ⟨Sample.classify, Sample.source, .usual⟩
    let begun := (({} : Session).act [] services (.start [] [] Sample.settings)).1
    (∀ action ∈ Sample.eager, action.isStart = false) ∧
      (∀ window ∈ Sample.windows, ∃ ts, tokens window = .ok ts) ∧
      Sample.eager.flatMap Action.events = Event.ofWindows Sample.windows ∧
      begun.taken services [] (Sample.eager.take 3) = [] ∧
      (deliver services Sample.settings [] [] Sample.windows).output =
        .ok (begun.taken services [] (Sample.eager ++ [.take])) := by
  intro services begun
  have hstart : ∀ action ∈ Sample.eager, action.isStart = false := by decide
  have hread : ∀ window ∈ Sample.windows, ∃ ts, tokens window = .ok ts := by
    intro window hwindow
    have hok : ∀ window ∈ Sample.windows, (tokens window).toOption.isSome = true := by
      decide +kernel
    cases hts : tokens window with
    | ok ts => exact ⟨ts, rfl⟩
    | error fault =>
      have hsome := hok window hwindow
      rw [hts] at hsome
      contradiction
  have hevents : Sample.eager.flatMap Action.events = Event.ofWindows Sample.windows := by
    decide +kernel
  obtain ⟨-, -, -, -, -, hdelivered⟩ :=
    taken_is_final services {} [] [] [] Sample.settings Sample.eager hstart
  exact ⟨hstart, hread, hevents, by decide +kernel,
    hdelivered Sample.windows rfl hread hevents⟩

end ImagePreview

import ImagePreview.Proofs.Document.Taking

/-!
Errors, and what is done before them. Events are refused behind the end of a document only, and
nothing else is done about them; where a window cannot be read, the delivery ends with the windows
before it.
-/
namespace ImagePreview

open Markup

namespace Document

variable {services : Services} {source : Source} {asked : List Lookup} {doc : Document}

theorem run_refused (hf : doc.finished = true) {events : List Event} (hsome : events ≠ []) :
    doc.run source asked events = { document := doc, error := some .finished } := by
  obtain ⟨event, rest, rfl⟩ := List.exists_cons_of_ne_nil hsome
  simp [run, step, hf]

/-- A window that cannot be read ends the delivery behind the flush of the window before it. -/
theorem deliver_of_fault (hf : doc.finished = false) {good : List Text}
    (hread : ∀ window ∈ good, ∃ ts, tokens window = .ok ts) {bad : Text} {fault : Fault}
    (hbad : tokens bad = .error fault) (later : List Text) :
    doc.deliver services asked (good ++ bad :: later) =
      ⟨.error (.markup fault), (doc.run services.source asked
        (good.flatMap fun window => (Action.html window).events ++ [.flush])).trace⟩ := by
  induction good generalizing doc asked with
  | nil =>
    rw [List.nil_append, deliver, hbad]
    rfl
  | cons window good ih =>
    obtain ⟨⟨ts, hts⟩, hlater⟩ := List.forall_mem_cons.mp hread
    let first := doc.run services.source asked ((Action.html window).events ++ [.flush])
    have hleaves := first.leaves_take services.assets
    have hopen : (first.document.take services.assets).2.finished = false :=
      finished_rest_window hts hf
    rw [List.cons_append, deliver_cons hts (by simp) hf, ih hopen hlater, List.flatMap_cons,
      (hleaves.run _).2]
    rfl

end Document

namespace Session

variable {services : Services} {session : Session} {name : Text} {doc : Document}

theorem act_done (hdoc : session.document? name = some doc) (hf : doc.finished = false)
    {action : Action} (hevents : action.events ≠ []) :
    (session.act name services action).2 = .done := by
  have herror : (doc.run services.source session.trace.lookups action.events).error = none := by
    cases action with
    | event event => exact Document.error_run_concat hf [] event
    | html markup => exact Document.error_run hf (by simp [Action.events])
    | start url client settings => rfl
    | take => rfl
  rw [act_of_events hdoc hevents, feed, herror]

theorem act_refused (hdoc : session.document? name = some doc) (hf : doc.finished = true)
    {action : Action} (hevents : action.events ≠ []) :
    let refused := session.act name services action
    refused.2 = .failed .finished ∧ refused.1.trace = session.trace ∧
      ∀ other, refused.1.document? other = session.document? other := by
  intro refused
  have hrefused : refused = (session.update name doc {}, .failed .finished) := by
    simp only [refused]
    rw [act_of_events hdoc hevents, feed, Document.run_refused hf hevents]
  rw [hrefused]
  refine ⟨rfl, Trace.append_empty _, fun other => ?_⟩
  by_cases hname : other = name
  · rw [hname, hdoc]
    exact document?_update_self doc {}
  · exact document?_update_of_ne hname doc {}

end Session

/-- Before the end of a document no event is an error; behind it every event is one, and changes
nothing. A delivery whose windows cannot all be read ends with the first fault, and leaves what is
left by its document when the windows before that are read and flushed, one after another. -/
theorem errors_leave_what_was_done (services : Services) (session : Session)
    (name url client : Text) (settings : Settings) (actions : List Action)
    (hstart : ∀ action ∈ actions, action.isStart = false) :
    let begun := fun session : Session =>
      (session.act name services (.start url client settings)).1
    let last := (begun session).play services (actions.map (name, ·))
    let events := actions.flatMap Action.events
    (.finish ∉ events → ∀ action : Action, action.events ≠ [] →
      (last.act name services action).2 = .done) ∧
    (.finish ∈ events → ∀ action : Action, action.events ≠ [] →
      let refused := last.act name services action
      refused.2 = .failed .finished ∧ refused.1.trace = last.trace ∧
        ∀ other, refused.1.document? other = last.document? other) ∧
    ∀ (good : List Text) (bad : Text) (later : List Text) (fault : Fault),
      (∀ window ∈ good, ∃ ts, tokens window = .ok ts) → tokens bad = .error fault →
      let fed := good.flatMap fun window => [Action.html window, .event .flush]
      let delivery := deliver services settings url client (good ++ bad :: later)
      delivery.output = .error (.markup fault) ∧
        delivery.trace = ((begun {}).play services (fed.map (name, ·))).trace := by
  intro begun last events
  let doc := Document.start services.classify settings url client
  have hdoc (session : Session) : (begun session).document? name = some doc :=
    Session.document?_update_self _ _
  obtain ⟨rest, hrest, hleaves, -⟩ :=
    Session.play_leaves services (hdoc session) hstart
  have hend : rest.finished = events.contains .finish := by
    rw [hleaves.finished, Document.finished_run]
    rfl
  refine ⟨fun hnot action hevents => ?_, fun hmem action hevents => ?_,
    fun good bad later fault hread hbad => ?_⟩
  · exact Session.act_done hrest (by simpa [hend] using hnot) hevents
  · exact Session.act_refused hrest (by simpa [hend] using hmem) hevents
  · intro fed delivery
    have hdelivery : doc.deliver services [] (good ++ bad :: later) = _ :=
      Document.deliver_of_fault rfl hread hbad later
    have hfed : ∀ action ∈ fed, action.isStart = false := by
      intro action haction
      obtain ⟨window, -, hwindow⟩ := List.mem_flatMap.mp haction
      simp only [List.mem_cons, List.not_mem_nil, or_false] at hwindow
      rcases hwindow with rfl | rfl <;> rfl
    have hevents : fed.flatMap Action.events =
        good.flatMap fun window => (Action.html window).events ++ [.flush] := by
      simp [fed, List.flatMap_assoc, Action.events]
    obtain ⟨-, -, -, htrace⟩ := Session.play_leaves services (hdoc {}) hfed
    have hbegun : (begun {}).trace = doc.startTrace := Trace.empty_append _
    rw [hevents, hbegun] at htrace
    simp only [delivery, deliver]
    rw [hdelivery, htrace]
    exact ⟨rfl, rfl⟩

namespace Sample

def broken : List Text := ["<img src=\"a\">".toList, "<img src=\"b\"><p".toList]

end Sample

theorem sample_errors_leave_what_was_done :
    let services : Services := ⟨Sample.classify, Sample.source, .usual⟩
    let begun := (({} : Session).act [] services (.start [] [] Sample.settings)).1
    let last := begun.play services (Sample.eager.map (([] : Text), ·))
    let fed := [Action.html "<img src=\"a\">".toList, .event .flush]
    let delivery := deliver services Sample.settings [] [] Sample.broken
    (∀ action ∈ Sample.eager, action.isStart = false) ∧
      .finish ∈ Sample.eager.flatMap Action.events ∧
      (last.act [] services (.event .flush)).2 = .failed .finished ∧
      (∀ window ∈ ["<img src=\"a\">".toList], ∃ ts, tokens window = .ok ts) ∧
      tokens "<img src=\"b\"><p".toList = .error (.unclosed .element) ∧
      delivery.output = .error (.markup (.unclosed .element)) ∧
      delivery.trace = (begun.play services (fed.map (([] : Text), ·))).trace ∧
      delivery.trace.lookups.map Lookup.url = ["a".toList] := by
  intro services begun last fed delivery
  have hstart : ∀ action ∈ Sample.eager, action.isStart = false := by decide
  have hend : .finish ∈ Sample.eager.flatMap Action.events := by decide +kernel
  have hread : ∀ window ∈ ["<img src=\"a\">".toList], ∃ ts, tokens window = .ok ts := by
    intro window hwindow
    rw [List.mem_singleton.mp hwindow]
    exact ⟨[.startTag { Sample.tag "a".toList with source := some "<img src=\"a\">".toList }],
      by decide +kernel⟩
  have hbad : tokens "<img src=\"b\"><p".toList = .error (.unclosed .element) := by
    decide +kernel
  obtain ⟨-, hrefused, hbroken⟩ :=
    errors_leave_what_was_done services {} [] [] [] Sample.settings Sample.eager hstart
  obtain ⟨hfailed, -, -⟩ := hrefused hend (.event .flush) (List.cons_ne_nil _ _)
  obtain ⟨hfault, htrace⟩ := hbroken ["<img src=\"a\">".toList] _ [] _ hread hbad
  have hlookups : delivery.trace.lookups.map Lookup.url = ["a".toList] := by decide +kernel
  exact ⟨hstart, hend, hfailed, hread, hbad, hfault, htrace, hlookups⟩

end ImagePreview

import ImagePreview.Proofs.Document.Inactive
import ImagePreview.Proofs.Image.Previews
import ImagePreview.Proofs.Scripts.Order

/-!
What is registered in a document altogether: every url that shows a preview, once, in the order of
their first images and each in the script of the window of its first one, with the data of the
preview that the source answered.
-/
namespace ImagePreview

open Markup

def Registration.of (pair : Text × Preview) : Registration := ⟨pair.1, pair.2.dataUri⟩

@[simp] theorem map_url_of (pairs : List (Text × Preview)) :
    (pairs.map Registration.of).map Registration.url = pairs.map Prod.fst := by
  simp [Registration.of]

theorem Moment.registers {source : Source} {m : Moment} (ha : m.document.isActive = true)
    (hs : m.document.policy.mode = .scripted) {t : Token} (ht : m.event = .token t)
    (hregistered : m.document.ledger.registered = m.document.ledger.previews.map Prod.fst) :
    ∃ fresh, (m.next source).ledger.previews = m.document.ledger.previews ++ fresh ∧
      (m.next source).ledger.pending =
        m.document.ledger.pending ++ fresh.map Registration.of := by
  have hledger : (m.next source).ledger = m.document.ledgerAfter source m.asked m.event := by
    rw [next_of_token ha ht]
  obtain ⟨hsame, hlisted⟩ | ⟨url, preview, htreatment, hnew, hnext⟩ := m.previews_cases source
  · refine ⟨[], by simpa using hsame, ?_⟩
    rw [hledger, List.map_nil, List.append_nil]
    obtain ⟨-, -, hpending⟩ | ⟨url, preview, htreatment, -, -, hpending⟩ :=
      m.document.ledgerAfter_cases source m.asked m.event
    · exact hpending
    · have hknown : url ∈ m.document.ledger.registered := by
        rw [hregistered]
        exact List.mem_map_of_mem (hlisted url preview htreatment)
      rw [hpending, Ledger.register_of_registered hknown]
  · refine ⟨[(url, preview)], hnext, ?_⟩
    have hunknown : url ∉ m.document.ledger.registered := by
      rw [hregistered]
      exact fun hmem => Ledger.outcome?_eq_none hnew (Ledger.mem_urls_of_previews hmem)
    rw [hledger, (Document.register_ledgerAfter htreatment hs).2,
      Ledger.register_of_new hunknown]
    rfl

/-- In scripted mode, what the scripts of a document register are the previews of its ledger, and
those of its closed windows register what these showed. -/
structure Enrolled (source : Source) (windows : Windows) (doc : Document) : Prop where
  entries : doc.entries = doc.ledger.previews.map Registration.of
  closed : Cue.registered (cues doc.buffer.closed) =
    (shown source (windows.closed.flatMap Window.moments)).eraseDups

namespace Enrolled

variable {source : Source} {ms : List Moment} {m : Moment}

theorem start {doc : Document} (hfresh : doc.Fresh) : Enrolled source {} doc := by
  constructor
  · rw [Document.entries, hfresh.buffer, hfresh.ledger]
    rfl
  · rw [hfresh.buffer]
    rfl

theorem urls_entries {windows : Windows} {doc : Document} (h : Enrolled source windows doc) :
    doc.entries.map Registration.url = doc.ledger.previews.map Prod.fst := by
  rw [h.entries, map_url_of]

theorem registered {windows : Windows} {doc : Document} (h : Enrolled source windows doc)
    (hkept : Kept source windows doc) :
    doc.ledger.registered = doc.ledger.previews.map Prod.fst := by
  rw [hkept.accounted.registered, ← h.urls_entries, Document.entries, List.map_append]
  rfl

theorem token (h : Enrolled source (Windows.ofMoments source ms) m.document)
    (hkept : Kept source (Windows.ofMoments source ms) m.document)
    (ha : m.document.isActive = true) (hs : m.document.policy.mode = .scripted) {t : Token}
    (ht : m.event = .token t) :
    Enrolled source (Windows.ofMoments source (ms ++ [m])) (m.next source) := by
  have hclosed := Moment.closed_of_token source ha ht
  rw [Windows.ofMoments_token ht]
  refine ⟨?_, by rw [hclosed]; exact h.closed⟩
  obtain ⟨fresh, hpreviews, hpending⟩ := Moment.registers ha hs ht (h.registered hkept)
  rw [Document.entries, hclosed, hpending, hpreviews, List.map_append, ← h.entries,
    Document.entries, List.append_assoc]

theorem close (h : Enrolled source (Windows.ofMoments source ms) m.document)
    (hkept : Kept source (Windows.ofMoments source ms) m.document)
    (hlisted : Listed source ms m.document) (ha : m.document.isActive = true)
    (hf : m.document.finished = false) (hc : m.event.closes = true) :
    Enrolled source (Windows.ofMoments source (ms ++ [m])) (m.next source) := by
  have hpreviews : (m.next source).ledger.previews = m.document.ledger.previews := by
    rw [Moment.next_of_closes ha hc]
    rfl
  have hpending : (m.next source).ledger.pending = [] := by
    rw [Moment.next_of_closes ha hc]
    rfl
  have hentries : Cue.entries (cues (m.next source).buffer.closed) = m.document.entries :=
    hkept.entries_close ha hf hc
  have hmoments : (Windows.ofMoments source (ms ++ [m])).closed.flatMap Window.moments =
      ms ++ [m] := by
    have hall := Windows.flatMap_moments source (ms ++ [m])
    rw [Windows.ofMoments_closes hc] at hall ⊢
    rwa [List.append_nil] at hall
  constructor
  · rw [Document.entries, hpending, List.append_nil, hentries, hpreviews, h.entries]
  · rw [hmoments, shown_append, shown_singleton, shown?_of_closes hc, Option.toList_none,
      List.append_nil, ← hlisted.shown, ← h.urls_entries, Cue.registered, hentries]

theorem next (h : Enrolled source (Windows.ofMoments source ms) m.document)
    (hkept : Kept source (Windows.ofMoments source ms) m.document)
    (hlisted : Listed source ms m.document) (ha : m.document.isActive = true)
    (hs : m.document.policy.mode = .scripted) (hf : m.document.finished = false) :
    Enrolled source (Windows.ofMoments source (ms ++ [m])) (m.next source) := by
  obtain ⟨t, ht⟩ | hc := m.event.token_or_closes
  · exact h.token hkept ha hs ht
  · exact h.close hkept hlisted ha hf hc

/-- What is pending is what the open window shows and no closed one has shown. -/
theorem urls_pending {doc : Document} (h : Enrolled source (Windows.ofMoments source ms) doc)
    (hlisted : Listed source ms doc) :
    doc.ledger.pending.map Registration.url =
      ((shown source (Windows.ofMoments source ms).late).removeAll
        (shown source ((Windows.ofMoments source ms).closed.flatMap Window.moments))).eraseDups := by
  have hall := h.urls_entries
  rw [Document.entries, List.map_append, ← Cue.registered, h.closed, hlisted.shown] at hall
  have hmoments := Windows.flatMap_moments source ms
  have hshown : shown source ms =
      shown source ((Windows.ofMoments source ms).closed.flatMap Window.moments) ++
        shown source (Windows.ofMoments source ms).late := by
    rw [← shown_append, hmoments]
  rw [hshown, List.eraseDups_append] at hall
  exact List.append_cancel_left hall

end Enrolled

structure Booked (source : Source) (start : Document) (ms : List Moment) (doc : Document) :
    Prop where
  stays : start.Stays doc
  kept : Kept source (Windows.ofMoments source ms) doc
  listed : Listed source ms doc
  known : Known source start.policy ms doc
  enrolled : Enrolled source (Windows.ofMoments source ms) doc

/-- What is registered in a document whose course is `ms`, in scripts in the output of its windows
and among what is pending for the next one. -/
structure RegisteredInFull (source : Source) (policy : Policy) (ms : List Moment)
    (windows : List Window) (pending : List Registration) : Prop where
  /-- Every url that shows a preview, once, in the order of their first images. -/
  urls : (Cue.entries (cues (Windows.output windows)) ++ pending).map Registration.url =
    (shown source ms).eraseDups
  emitted : Cue.registered (cues (Windows.output windows)) =
    (shown source (windows.flatMap Window.moments)).eraseDups
  /-- Each with the data of the preview that the source answered for it and its images show. -/
  data : ∀ entry ∈ Cue.entries (cues (Windows.output windows)) ++ pending, ∃ preview,
    entry.dataUri = preview.dataUri ∧
    (∃ m ∈ ms, (m.trace source).lookups = [policy.lookup entry.url] ∧
      source m.asked (policy.lookup entry.url) = .ok (some preview)) ∧
    ∀ m ∈ ms, m.subject? = some entry.url → m.treatment source = .preview entry.url preview
  /-- One script at the most in a window, for the urls whose first images stand in it. -/
  windows : ∀ earlier window later, windows = earlier ++ window :: later →
    ∃ entries, Cue.batches (cues window.output) = (if entries.isEmpty then [] else [entries]) ∧
      entries.map Registration.url = ((shown source window.moments).removeAll
        (shown source (earlier.flatMap Window.moments))).eraseDups

namespace Document

variable {source : Source} {doc : Document}

theorem booked_course (source : Source) (hfresh : doc.Fresh) (ha : doc.isActive = true)
    (hs : doc.policy.mode = .scripted) (asked : List Lookup) (events : List Event) :
    let ms := doc.moments source asked events
    Booked source doc ms (doc.run source asked events).document ∧
      ∀ earlier m later, ms = earlier ++ m :: later →
        Booked source doc earlier m.document ∧ m.document.finished = false := by
  intro ms
  have hstep : ∀ ms m, Booked source doc ms m.document → m.document.finished = false →
      Booked source doc (ms ++ [m]) (m.next source) := by
    intro ms m h hf
    have hscripted : m.document.policy.mode = .scripted := by rw [h.stays.policy, hs]
    exact ⟨h.stays.next, h.kept.next h.stays.active hf, h.listed.next, h.known.next,
      h.enrolled.next h.kept h.listed h.stays.active hscripted hf⟩
  have hstart : Booked source doc [] doc :=
    ⟨⟨ha, rfl, rfl⟩, Kept.start hfresh, Listed.nil source hfresh, Known.nil source hfresh,
      Enrolled.start hfresh⟩
  refine ⟨course_induction hstep asked events hstart, fun earlier m later hm => ?_⟩
  exact course_at hstep asked events hstart hm

theorem registered_of_active (hfresh : doc.Fresh) (ha : doc.isActive = true)
    (hs : doc.policy.mode = .scripted) (asked : List Lookup) (events : List Event) :
    let last := (doc.run source asked events).document
    let windows := doc.windows source asked events
    last.buffer.closed = Windows.output windows ∧
      RegisteredInFull source doc.policy (doc.moments source asked events) windows
        last.ledger.pending := by
  intro last windows
  obtain ⟨hend, hat⟩ := booked_course source hfresh ha hs asked events
  have hclosed : last.buffer.closed = Windows.output windows := hend.kept.closed
  refine ⟨hclosed, ?_, ?_, ?_, ?_⟩
  · rw [← hclosed, ← hend.listed.shown]
    exact hend.enrolled.urls_entries
  · rw [← hclosed]
    exact hend.enrolled.closed
  · intro entry hentry
    rw [← hclosed] at hentry
    change entry ∈ last.entries at hentry
    rw [hend.enrolled.entries] at hentry
    obtain ⟨⟨image, preview⟩, hpair, rfl⟩ := List.mem_map.mp hentry
    have hknown := Ledger.outcome?_of_mem_previews hend.listed.nodup hpair
    obtain ⟨earlier, m, later, hm, hone, hanswer⟩ := hend.known.answered image preview hknown
    refine ⟨preview, rfl, ⟨m, by rw [hm]; simp, hone, hanswer⟩, fun x hx himage => ?_⟩
    obtain ⟨outcome, hother, hfollows⟩ := hend.known.followed x hx image himage
    rw [hknown, Option.some.injEq] at hother
    rw [← hother] at hfollows
    exact hfollows
  · intro earlier window later hw
    obtain ⟨front, m, rest, hm, hc, rfl, rfl⟩ := Windows.exists_moment hw
    obtain ⟨hbooked, hf⟩ := hat front m rest hm
    refine ⟨m.document.ledger.pending, ?_, ?_⟩
    · rw [hbooked.kept.cues_closed hbooked.stays.active hf hc]
      simp [batches_scriptsFor, batches_activationFor]
    · rw [hbooked.enrolled.urls_pending hbooked.listed, shown_append, shown_singleton,
        shown?_of_closes hc]
      simp

theorem registered_of_inactive (hfresh : doc.Fresh) (hi : doc.isActive = false)
    (asked : List Lookup) (events : List Event) :
    let last := (doc.run source asked events).document
    let windows := doc.windows source asked events
    last.buffer.closed = Windows.output windows ∧
      RegisteredInFull source doc.policy (doc.moments source asked events) windows
        last.ledger.pending := by
  intro last windows
  obtain ⟨⟨huntouched, hclosed⟩, hat⟩ := Untouched.course source hfresh hi asked events
  have hcues : cues (Windows.output windows) = [] := by
    refine List.filterMap_eq_nil_iff.mpr fun piece hpiece => ?_
    rw [← hclosed] at hpiece
    obtain ⟨t, rfl⟩ := huntouched.tokens piece (List.mem_append_left _ hpiece)
    rfl
  have hpending : last.ledger.pending = [] := by rw [huntouched.ledger]
  have hshown : shown source (doc.moments source asked events) = [] := by
    refine List.filterMap_eq_nil_iff.mpr fun m hm => ?_
    rw [Moment.shown?, Moment.treatment, treatmentAt_of_inactive (hat m hm).inactive]
    rfl
  have hmoments := Windows.flatMap_moments source (doc.moments source asked events)
  rw [← hmoments, shown_append, List.append_eq_nil_iff] at hshown
  refine ⟨hclosed, ?_, ?_, ?_, ?_⟩
  · rw [hcues, hpending, ← hmoments, shown_append, hshown.1, hshown.2]
    rfl
  · rw [hcues]
    exact (congrArg List.eraseDups hshown.1).symm
  · intro entry hentry
    rw [hcues, hpending] at hentry
    contradiction
  · intro earlier window later hw
    have hnone : shown source (windows.flatMap Window.moments) = [] := hshown.1
    rw [hw, Windows.output_split, cues_append, cues_append, List.append_eq_nil_iff,
      List.append_eq_nil_iff] at hcues
    rw [hw, List.flatMap_append, List.flatMap_cons, shown_append, shown_append,
      List.append_eq_nil_iff, List.append_eq_nil_iff] at hnone
    refine ⟨[], ?_, ?_⟩
    · rw [hcues.2.1]
      rfl
    · rw [hnone.2.1]
      rfl

theorem pending_of_closes (hfresh : doc.Fresh) (asked : List Lookup) (events : List Event)
    {m : Moment} (hm : m ∈ doc.moments source asked events) (hc : m.event.closes = true) :
    (m.next source).ledger.pending = [] := by
  cases ha : doc.isActive with
  | true =>
    obtain ⟨earlier, later, hsplit⟩ := List.append_of_mem hm
    obtain ⟨⟨hstays, -⟩, -⟩ := (kept_course source hfresh ha asked events).2 earlier m later hsplit
    rw [Moment.next_of_closes hstays.active hc]
    rfl
  | false =>
    have huntouched := (Untouched.course source hfresh ha asked events).2 m hm
    rw [huntouched.next.ledger]

end Document

/-- In a document whose previews scripts put in, each url that shows a preview is registered once,
in the window of its first image, with the data of the preview that the source answered for it. -/
theorem registered_in_full (classify : Classifier) (settings : Settings) (url client : Text)
    (source : Source) (asked : List Lookup) (events : List Event)
    (hs : (Document.start classify settings url client).policy.mode = .scripted) :
    let doc := Document.start classify settings url client
    let ms := doc.moments source asked events
    let windows := doc.windows source asked events
    let last := (doc.run source asked events).document
    last.buffer.closed = Windows.output windows ∧
      RegisteredInFull source doc.policy ms windows last.ledger.pending ∧
      (∀ m ∈ ms, m.event.closes = true → (m.next source).ledger.pending = []) ∧
      (last.finished = true →
        windows.flatMap Window.moments = ms ∧ last.ledger.pending = []) := by
  intro doc ms windows last
  have hfresh : doc.Fresh := Document.fresh_start ..
  obtain ⟨hclosed, hregistered⟩ :
      last.buffer.closed = Windows.output windows ∧
        RegisteredInFull source doc.policy ms windows last.ledger.pending := by
    cases ha : doc.isActive with
    | true => exact Document.registered_of_active hfresh ha hs asked events
    | false => exact Document.registered_of_inactive hfresh ha asked events
  refine ⟨hclosed, hregistered, ?_, fun hend => ?_⟩
  · exact fun m hm hc => Document.pending_of_closes hfresh asked events hm hc
  · have hmoments : windows.flatMap Window.moments = ms :=
      Document.moments_windows hfresh.finished hend
    refine ⟨hmoments, ?_⟩
    -- the windows have all that the course shows, so nothing is left for another one
    have hurls := hregistered.urls
    rw [List.map_append, ← Cue.registered, hregistered.emitted, hmoments] at hurls
    simpa using hurls

theorem sample_registered_in_full :
    Sample.document.policy.mode = .scripted ∧
      RegisteredInFull Sample.source Sample.document.policy
        (Sample.document.moments Sample.source [] (Sample.events ++ [.finish]))
        (Sample.document.windows Sample.source [] (Sample.events ++ [.finish])) [] ∧
      Cue.entries (cues Sample.output) = [Registration.of ("a".toList, Sample.preview)] := by
  obtain ⟨-, hregistered, -⟩ := registered_in_full Sample.classify Sample.settings [] []
    Sample.source [] (Sample.events ++ [Event.finish]) rfl
  exact ⟨rfl, hregistered, by decide +kernel⟩

end ImagePreview

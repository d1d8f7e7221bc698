import ImagePreview.Proofs.Scripts.Account

/-!
The order of the scripts for previews. A url is registered in the window of its first image, behind
all images of that window; the library goes before every registration, and the script that puts the
full images back behind all the rest.
-/
namespace ImagePreview

open Markup

theorem Cue.images_front {urls : List Text} {rest front rear : List Cue} {c : Cue}
    (hrest : Cue.images rest = []) (hc : c.image? = none)
    (h : urls.map Cue.image ++ rest = front ++ c :: rear) : Cue.images front = urls := by
  obtain ⟨more, rfl, hmore⟩ | ⟨more, hurls, hmore⟩ := List.append_eq_append_iff.mp h
  · rw [hmore, images_append, List.append_eq_nil_iff] at hrest
    simp [hrest.1]
  · cases more with
    | nil =>
      rw [List.append_nil] at hurls
      rw [← hurls, images_map]
    | cons d more =>
      obtain ⟨rfl, -⟩ := List.cons.inj hmore
      have hmem : c ∈ urls.map Cue.image := by simp [hurls]
      obtain ⟨url, -, rfl⟩ := List.mem_map.mp hmem
      contradiction

theorem Cue.batches_front {urls : List Text} {rest front rear : List Cue} {url : Text}
    (hrest : Cue.images rest = [])
    (h : urls.map Cue.image ++ rest = front ++ .image url :: rear) :
    url ∈ urls ∧ Cue.batches front = [] := by
  obtain ⟨more, rfl, hmore⟩ | ⟨more, hurls, hmore⟩ := List.append_eq_append_iff.mp h
  · rw [hmore, images_append, List.append_eq_nil_iff] at hrest
    exact absurd hrest.2 (by simp [images, image?])
  · have hnone := batches_map urls
    rw [hurls, batches_append, List.append_eq_nil_iff] at hnone
    refine ⟨?_, hnone.1⟩
    cases more with
    | nil =>
      rw [List.nil_append] at hmore
      rw [← hmore] at hrest
      exact absurd hrest (by simp [images, image?])
    | cons d more =>
      obtain ⟨rfl, -⟩ := List.cons.inj hmore
      have hmem : Cue.image url ∈ urls.map Cue.image := by simp [hurls]
      simpa using hmem

theorem InOrder.not_activation {body : List Cue} (h : InOrder body) (whenSeen : Bool) :
    .activation whenSeen ∉ body := by
  intro hmem
  have hscript : .activation whenSeen ∈ Cue.scripts body := by
    simp [Cue.scripts, hmem, Cue.image?]
  rw [h] at hscript
  split at hscript
  · exact absurd hscript List.not_mem_nil
  · simp at hscript

theorem InOrder.eq_nil_of_activation {body front rear : List Cue} (h : InOrder body) {due : Bool}
    {policy : Policy} {whenSeen : Bool}
    (hsplit : body ++ activationFor due policy = front ++ .activation whenSeen :: rear) :
    rear = [] := by
  have hnone := h.not_activation whenSeen
  obtain hrear | ⟨more, c, rfl⟩ := List.eq_nil_or_concat rear
  · exact hrear
  · cases due with
    | false =>
      rw [activationFor, if_neg Bool.false_ne_true, List.append_nil] at hsplit
      simp [hsplit] at hnone
    | true =>
      rw [activationFor, if_pos rfl, List.concat_eq_append, ← List.cons_append,
        ← List.append_assoc] at hsplit
      simp [(List.append_inj' hsplit rfl).1] at hnone

namespace Document

variable {source : Source} {doc : Document}

theorem kept_course (source : Source) (hfresh : doc.Fresh) (ha : doc.isActive = true)
    (asked : List Lookup) (events : List Event) :
    let ms := doc.moments source asked events
    let last := (doc.run source asked events).document
    (doc.Stays last ∧ Kept source (Windows.ofMoments source ms) last) ∧
      ∀ earlier m later, ms = earlier ++ m :: later →
        (doc.Stays m.document ∧ Kept source (Windows.ofMoments source earlier) m.document) ∧
          m.document.finished = false := by
  intro ms last
  let P := fun ms d => doc.Stays d ∧ Kept source (Windows.ofMoments source ms) d
  have hstep : ∀ ms m, P ms m.document → m.document.finished = false →
      P (ms ++ [m]) (m.next source) := fun ms m h hf => ⟨h.1.next, h.2.next h.1.active hf⟩
  have hstart : P [] doc := ⟨⟨ha, rfl, rfl⟩, Kept.start hfresh⟩
  refine ⟨course_induction hstep asked events hstart, fun earlier m later hm => ?_⟩
  exact course_at hstep asked events hstart hm

/-- How a closed window reads: its images, the registration of those of their urls that were not
registered further up, and at the end of the document the script that puts the full images back. -/
theorem cues_window (hfresh : doc.Fresh) (ha : doc.isActive = true) {asked : List Lookup}
    {events : List Event} {earlier later : List Window} {window : Window}
    (hw : doc.windows source asked events = earlier ++ window :: later) :
    ∃ first pending due, cues window.output =
        (shown source window.moments).map .image ++
          (scriptsFor first pending ++ activationFor due doc.policy) ∧
      (doc.policy.mode = .scripted → ∀ url, url ∈ pending.map Registration.url ↔
        url ∈ shown source window.moments ∧
          url ∉ Cue.registered (cues (Windows.output earlier))) := by
  obtain ⟨front, m, rest, hm, hc, rfl, rfl⟩ := Windows.exists_moment hw
  obtain ⟨⟨hstays, hkept⟩, hf⟩ := (kept_course source hfresh ha asked events).2 front m rest hm
  have hshown : shown source ((Windows.ofMoments source front).late ++ [m]) =
      shown source (Windows.ofMoments source front).late := by
    rw [shown_append, shown_singleton, shown?_of_closes hc]
    exact List.append_nil _
  have hread := hkept.cues_closed hstays.active hf hc
  have haccounted := hkept.accounted
  rw [hstays.policy] at hread haccounted
  simp only [hshown, ← hkept.closed]
  refine ⟨_, _, _, hread, fun hs url => ?_⟩
  rw [hs] at haccounted
  exact haccounted.pending_iff url

theorem nodup_registered (source : Source) (hfresh : doc.Fresh) (ha : doc.isActive = true)
    (asked : List Lookup) (events : List Event) :
    (Cue.registered (cues (Windows.output (doc.windows source asked events)))).Nodup := by
  obtain ⟨⟨-, hkept⟩, -⟩ := kept_course source hfresh ha asked events
  have hnodup := hkept.accounted.nodup
  rw [hkept.accounted.registered, hkept.closed] at hnodup
  exact (List.nodup_append.mp hnodup).1

section Window

variable {asked : List Lookup} {events : List Event} {earlier later : List Window} {window : Window}

/-- A new url in a window is registered there, and with it all that are new. -/
theorem batches_window_of_new (hfresh : doc.Fresh) (ha : doc.isActive = true)
    (hs : doc.policy.mode = .scripted)
    (hw : doc.windows source asked events = earlier ++ window :: later)
    (hnew : ∃ url ∈ shown source window.moments,
      url ∉ Cue.registered (cues (Windows.output earlier))) :
    ∃ entries, Cue.batches (cues window.output) = [entries] ∧
      ∀ url, url ∈ entries.map Registration.url ↔ url ∈ shown source window.moments ∧
        url ∉ Cue.registered (cues (Windows.output earlier)) := by
  obtain ⟨first, pending, due, hcues, hpending⟩ := cues_window hfresh ha hw
  obtain ⟨url, hurl⟩ := hnew
  have hmem := (hpending hs url).mpr hurl
  refine ⟨pending, ?_, hpending hs⟩
  rw [hcues]
  cases pending with
  | nil => contradiction
  | cons entry rest => simp [batches_scriptsFor, batches_activationFor]

theorem batches_window_of_old (hfresh : doc.Fresh) (ha : doc.isActive = true)
    (hs : doc.policy.mode = .scripted)
    (hw : doc.windows source asked events = earlier ++ window :: later)
    (hold : ∀ url ∈ shown source window.moments,
      url ∈ Cue.registered (cues (Windows.output earlier))) :
    Cue.batches (cues window.output) = [] := by
  obtain ⟨first, pending, due, hcues, hpending⟩ := cues_window hfresh ha hw
  rw [hcues]
  cases pending with
  | nil => simp [batches_scriptsFor, batches_activationFor]
  | cons entry rest =>
    obtain ⟨hurl, hnew⟩ := (hpending hs entry.url).mp (by simp)
    exact absurd (hold _ hurl) hnew

theorem images_window (hfresh : doc.Fresh) (ha : doc.isActive = true)
    (hw : doc.windows source asked events = earlier ++ window :: later) :
    Cue.images (cues window.output) = shown source window.moments ∧
      ∀ front entries rear, cues window.output = front ++ .registrations entries :: rear →
        Cue.images front = shown source window.moments := by
  obtain ⟨first, pending, due, hcues, -⟩ := cues_window hfresh ha hw
  have hrest : Cue.images (scriptsFor first pending ++ activationFor due doc.policy) = [] := by
    simp [images_scriptsFor, images_activationFor]
  rw [hcues]
  refine ⟨by simp [hrest], fun front entries rear hsplit => ?_⟩
  exact Cue.images_front hrest rfl hsplit

end Window

end Document

structure ScriptsInOrder (source : Source) (policy : Policy) (ms : List Moment)
    (windows : List Window) : Prop where
  /-- The library comes first, then all registrations, and at last the full images. -/
  scripts : Cue.scripts (cues (Windows.output windows)) =
    if (shown source ms).isEmpty then []
    else .library :: (Cue.batches (cues (Windows.output windows))).map .registrations ++
      [.activation policy.lazyFullImages]
  /-- One script registers the urls that are new in a window. -/
  registers : ∀ earlier window later, windows = earlier ++ window :: later →
    (∃ url ∈ shown source window.moments,
      url ∉ Cue.registered (cues (Windows.output earlier))) →
    ∃ entries, Cue.batches (cues window.output) = [entries] ∧
      ∀ url, url ∈ entries.map Registration.url ↔ url ∈ shown source window.moments ∧
        url ∉ Cue.registered (cues (Windows.output earlier))
  registersNone : ∀ earlier window later, windows = earlier ++ window :: later →
    (∀ url ∈ shown source window.moments,
      url ∈ Cue.registered (cues (Windows.output earlier))) →
    Cue.batches (cues window.output) = []
  /-- Registrations stand behind all images of their window. -/
  behind : ∀ window ∈ windows, Cue.images (cues window.output) = shown source window.moments ∧
    ∀ front entries rear, cues window.output = front ++ .registrations entries :: rear →
      Cue.images front = shown source window.moments
  /-- Nothing stands behind the script for the full images. -/
  last : ∀ front whenSeen rear,
    cues (Windows.output windows) = front ++ .activation whenSeen :: rear → rear = []

/-- The scripts for previews stand in order in every finished document. -/
theorem scripts_in_order (classify : Classifier) (settings : Settings) (url client : Text)
    (source : Source) (asked : List Lookup) (events : List Event)
    (ha : (Document.start classify settings url client).isActive = true)
    (hf : ((Document.start classify settings url client).run source asked
      events).document.finished = true) :
    let doc := Document.start classify settings url client
    let ms := doc.moments source asked events
    let windows := doc.windows source asked events
    windows.flatMap Window.moments = ms ∧
      (∀ assets, ((doc.run source asked events).document.take assets).1 =
        Piece.render doc.policy assets (Windows.output windows)) ∧
      (doc.policy.mode = .scripted → ScriptsInOrder source doc.policy ms windows) ∧
      (doc.policy.mode = .inline → Cue.scripts (cues (Windows.output windows)) = []) := by
  intro doc ms windows
  have hfresh : doc.Fresh := Document.fresh_start ..
  obtain ⟨⟨hstays, hkept⟩, -⟩ := Document.kept_course source hfresh ha asked events
  have hmoments : windows.flatMap Window.moments = ms := by
    have hall := Windows.flatMap_moments source ms
    rwa [hkept.ended hf, List.append_nil] at hall
  have hclosed : (doc.run source asked events).document.buffer.closed = Windows.output windows :=
    hkept.closed
  obtain ⟨body, hbody, hread⟩ := hkept.ordered.order
  have haccounted := hkept.accounted
  rw [hf, Bool.true_and, hstays.policy, hclosed] at hread
  rw [hstays.policy, hclosed] at haccounted
  refine ⟨hmoments, ?_, ?_, ?_⟩
  · intro assets
    rw [Document.take, Buffer.take, hstays.policy, hclosed]
  · intro hs
    refine ⟨?_, ?_, ?_, ?_, ?_⟩
    · rw [hs] at haccounted
      have himages : Cue.images (cues (Windows.output windows)) = shown source ms := by
        rw [← hclosed, hkept.images, ← hmoments]
        rfl
      have hentries := haccounted.isEmpty_entries
      rw [himages, hread] at hentries
      rw [Cue.entries_append, entries_activationFor, List.append_nil] at hentries
      rw [hread, Cue.scripts_append, scripts_activationFor, Cue.batches_append,
        batches_activationFor, List.append_nil, hbody, hentries]
      cases (shown source ms).isEmpty <;> simp [activationFor]
    · exact fun earlier window later hw => Document.batches_window_of_new hfresh ha hs hw
    · exact fun earlier window later hw => Document.batches_window_of_old hfresh ha hs hw
    · intro window hmem
      obtain ⟨earlier, later, hw⟩ := List.append_of_mem hmem
      exact Document.images_window hfresh ha hw
    · intro front whenSeen rear hsplit
      rw [hread] at hsplit
      exact hbody.eq_nil_of_activation hsplit
  · intro hi
    have hnone := haccounted.registered
    rw [haccounted.inline hi, hread] at hnone
    have hentries : Cue.entries body = [] := by
      simp only [Cue.registered, Cue.entries_append, entries_activationFor, List.append_nil,
        List.nil_eq_append_iff, List.map_eq_nil_iff] at hnone
      exact hnone.1
    rw [hread, Cue.scripts_append, scripts_activationFor, hbody, hentries]
    rfl

theorem sample_scripts_in_order :
    Sample.document.isActive = true ∧
      (Sample.document.run Sample.source [] (Sample.events ++ [.finish])).document.finished = true ∧
      ScriptsInOrder Sample.source Sample.document.policy
        (Sample.document.moments Sample.source [] (Sample.events ++ [.finish]))
        (Sample.document.windows Sample.source [] (Sample.events ++ [.finish])) :=
  ⟨rfl, rfl, (scripts_in_order Sample.classify Sample.settings [] [] Sample.source []
    (Sample.events ++ [Event.finish]) rfl rfl).2.2.1 rfl⟩

end ImagePreview

import ImagePreview.Proofs.Document.Insertion
import ImagePreview.Proofs.Image.Lookups
import ImagePreview.Proofs.Scripts.Order
import ImagePreview.Proofs.Scripts.Page

/-!
Which images a client shows previews for. An image gets its preview if its url is registered in the
window it stands in. A url is registered in one window only, so its images in later windows get
none.
-/
namespace ImagePreview

open Markup

variable {source : Source}

theorem Document.event_mem {asked : List Lookup} {doc : Document} {events : List Event} {m : Moment}
    (h : m ∈ doc.moments source asked events) : m.event ∈ events := by
  induction events generalizing doc asked with
  | nil => contradiction
  | cons event rest ih =>
    cases hf : doc.finished with
    | true =>
      rw [moments_of_finished hf] at h
      contradiction
    | false =>
      rw [moments_cons hf] at h
      obtain rfl | h := List.mem_cons.mp h
      · exact List.mem_cons_self
      · exact List.mem_cons_of_mem _ (ih h)

theorem Moment.preview_of_mem {m : Moment} {tag : StartTag} {url : Text} {preview : Preview}
    (h : .preview tag url preview ∈ m.pieces source) :
    m.event = .token (.startTag tag) ∧ m.treatment source = .preview url preview := by
  have hunit : .preview tag url preview ∈ m.unit source := by
    simpa [pieces, Document.pieces, unit] using h
  obtain ⟨t, ht, -⟩ | ⟨other, u, p, hpiece, hevent, htreat⟩ | ⟨other, ht⟩ := m.unit_cases hunit
  · contradiction
  · obtain ⟨rfl, rfl, rfl⟩ := Piece.preview.inj hpiece
    exact ⟨hevent, htreat⟩
  · contradiction

theorem Arranged.preview_of_mem {ms : List Moment} {doc : Document} (h : Arranged source ms doc)
    {tag : StartTag} {url : Text} {preview : Preview}
    (hmem : .preview tag url preview ∈ doc.buffer.closed) :
    ∃ m ∈ ms, m.event = .token (.startTag tag) ∧ m.treatment source = .preview url preview := by
  obtain ⟨put, late, rfl, hclosed, -⟩ := h
  rw [hclosed, laid] at hmem
  obtain ⟨x, hx, hpiece⟩ := List.mem_flatMap.mp hmem
  refine ⟨x.2, by simpa using Or.inl ⟨_, hx⟩, Moment.preview_of_mem ?_⟩
  simpa using hpiece

/-- The node of an image that was decided about waits for its decoded source, and the url of the
decision is the same without the blanks around the source. -/
theorem key?_previewTag {policy : Policy} (assets : Assets) {tag : StartTag} {url : Text}
    (preview : Preview) (hs : policy.mode = .scripted) (hc : candidate? policy tag = some url) :
    ∃ value, tag.get? sourceAttribute = some value ∧
      url = Text.Reference.decode (Text.trim value) ∧
      ({ tag := Piece.previewTag policy assets tag preview } : Node).key? =
        some (Text.Reference.decode value) := by
  obtain ⟨hfull, value, hvalue, hurl⟩ := source_of_candidate hc
  refine ⟨value, hvalue, hurl, ?_⟩
  rw [Node.key?, Piece.previewTag, hs, get?_withPreview hfull hvalue, Option.map_some]

theorem key?_of_candidate {policy : Policy} (assets : Assets) {tag : StartTag} {url : Text}
    (preview : Preview) (hs : policy.mode = .scripted) (hc : candidate? policy tag = some url)
    (htrim : ∀ value, tag.get? sourceAttribute = some value → Text.trim value = value) :
    ({ tag := Piece.previewTag policy assets tag preview } : Node).key? = some url := by
  obtain ⟨value, hvalue, hurl, hkey⟩ := key?_previewTag assets preview hs hc
  rw [hkey, hurl, htrim value hvalue]

def Backed (source : Source) (ms : List Moment) (entries : List Registration) : Prop :=
  ∀ entry ∈ entries, ∃ m ∈ ms, ∃ preview,
    m.treatment source = .preview entry.url preview ∧ entry.dataUri = preview.dataUri

theorem Backed.next {ms : List Moment} {m : Moment}
    (h : Backed source ms m.document.entries)
    (hkept : Kept source (Windows.ofMoments source ms) m.document)
    (ha : m.document.isActive = true) (hf : m.document.finished = false) :
    Backed source (ms ++ [m]) (m.next source).entries := by
  have hold : Backed source (ms ++ [m]) m.document.entries := fun entry hentry => by
    obtain ⟨x, hx, hpreview⟩ := h entry hentry
    exact ⟨x, List.mem_append_left _ hx, hpreview⟩
  obtain ⟨t, ht⟩ | hc := m.event.token_or_closes
  · have hledger : (m.next source).ledger = m.document.ledgerAfter source m.asked m.event := by
      rw [Moment.next_of_token ha ht]
    rw [Document.entries, Moment.closed_of_token source ha ht, hledger]
    obtain ⟨-, -, hsame⟩ | ⟨url, preview, htreatment, -, -, hpending⟩ :=
      m.document.ledgerAfter_cases source m.asked m.event
    · rw [hsame]
      exact hold
    · rw [hpending]
      by_cases hknown : url ∈ m.document.ledger.registered
      · rw [Ledger.register_of_registered hknown]
        exact hold
      · rw [Ledger.register_of_new hknown, ← List.append_assoc]
        intro entry hentry
        obtain hentry | hentry := List.mem_append.mp hentry
        · exact hold entry hentry
        · rw [List.mem_singleton.mp hentry]
          exact ⟨m, by simp, preview, htreatment, rfl⟩
  · have hsettled : (m.next source).ledger.pending = [] := by
      rw [Moment.next_of_closes ha hc]
      rfl
    rw [Document.entries, hkept.entries_close ha hf hc, hsettled, List.append_nil]
    exact hold

theorem Document.backed_course (source : Source) {doc : Document} (hfresh : doc.Fresh)
    (ha : doc.isActive = true) (asked : List Lookup) (events : List Event) :
    Backed source (doc.moments source asked events)
      (doc.run source asked events).document.entries := by
  let P := fun ms (d : Document) => doc.Stays d ∧ Kept source (Windows.ofMoments source ms) d ∧
    Backed source ms d.entries
  have hstep : ∀ ms m, P ms m.document → m.document.finished = false →
      P (ms ++ [m]) (m.next source) := fun ms m h hf =>
    ⟨h.1.next, h.2.1.next h.1.active hf, h.2.2.next h.2.1 h.1.active hf⟩
  have hnone : doc.entries = [] := by
    rw [entries, hfresh.buffer, hfresh.ledger]
    rfl
  have hstart : P [] doc := by
    refine ⟨⟨ha, rfl, rfl⟩, Kept.start hfresh, ?_⟩
    rw [hnone]
    exact fun entry hentry => absurd hentry List.not_mem_nil
  exact (course_induction hstep asked events hstart).2.2

/-- Behind an image of a window stands the script of the window, and no other. -/
theorem batches_behind {urls : List Text} {first due : Bool} {pending : List Registration}
    {policy : Policy} {front rear : List Cue} {url : Text}
    (h : front ++ .image url :: rear =
      urls.map .image ++ (scriptsFor first pending ++ activationFor due policy)) :
    url ∈ urls ∧ Cue.batches rear = if pending.isEmpty then [] else [pending] := by
  have hrest : Cue.images (scriptsFor first pending ++ activationFor due policy) = [] := by
    simp [images_scriptsFor, images_activationFor]
  obtain ⟨hurl, hfront⟩ := Cue.batches_front hrest h.symm
  refine ⟨hurl, ?_⟩
  have hboth := congrArg Cue.batches h
  rw [← List.singleton_append] at hboth
  simp only [Cue.batches_append, Cue.batches_map, hfront, batches_scriptsFor,
    batches_activationFor, List.append_nil, List.nil_append] at hboth
  exact hboth

namespace Document

variable {doc : Document} {asked : List Lookup} {events : List Event}

theorem key?_of_mem (hfresh : doc.Fresh) (ha : doc.isActive = true)
    (hs : doc.policy.mode = .scripted)
    (htrim : ∀ tag : StartTag, .token (.startTag tag) ∈ events → tag.element.isImage = true →
      ∀ value, tag.get? sourceAttribute = some value → Text.trim value = value)
    {tag : StartTag} {url : Text} {preview : Preview}
    (hmem : .preview tag url preview ∈ (doc.run source asked events).document.buffer.closed)
    (assets : Assets) :
    (∃ m ∈ doc.moments source asked events, m.treatment source = .preview url preview) ∧
      ({ tag := Piece.previewTag doc.policy assets tag preview } : Node).key? = some url := by
  obtain ⟨-, harranged, hcourse⟩ := arranged_course source hfresh ha asked events
  obtain ⟨m, hm, he, ht⟩ := harranged.preview_of_mem hmem
  refine ⟨⟨m, hm, ht⟩, ?_⟩
  obtain ⟨other, hother, hl, hc⟩ := Moment.candidate_of_preview ht
  obtain ⟨earlier, later, hsplit⟩ := List.append_of_mem hm
  have hstays := (hcourse earlier m later hsplit).1
  rw [he] at hother
  obtain rfl : tag = other := by simpa using hother
  rw [hstays.policy] at hc
  have hevent := event_mem hm
  rw [he] at hevent
  exact key?_of_candidate assets preview hs hc (htrim tag hevent (isImage_of_looksAt hl))

/-- What is registered for a url is the preview that all of its images show. -/
theorem dataUri_eq (hfresh : doc.Fresh) (ha : doc.isActive = true) {m : Moment}
    (hm : m ∈ doc.moments source asked events) {preview : Preview} {entry : Registration}
    (ht : m.treatment source = .preview entry.url preview)
    (hentry : entry ∈ (doc.run source asked events).document.entries) :
    entry.dataUri = preview.dataUri := by
  obtain ⟨x, hx, p, hp, hdata⟩ := backed_course source hfresh ha asked events entry hentry
  have hknown := course_induction (fun ms m h _ => Known.next h) asked events
    (Known.nil source hfresh)
  rw [hdata, hknown.preview_unique hx hm hp ht]

end Document

def AllArrive (policy : Policy) (assets : Assets) (output : List Piece) : Prop :=
  ∀ before tag url preview after, output = before ++ .preview tag url preview :: after →
    Page.nodeAfter policy assets before output =
      some { tag := Piece.previewTag policy assets tag preview, shown := some preview.dataUri }

/-- The same window by window: an image shows its preview in the end, unless its url was registered
in an earlier window; then no script puts anything into it. -/
def ArriveByWindow (source : Source) (policy : Policy) (assets : Assets) (windows : List Window)
    (output : List Piece) : Prop :=
  ∀ earlier window later, windows = earlier ++ window :: later →
    Cue.images (cues window.output) = shown source window.moments ∧
    ∀ before tag url preview after,
      window.output = before ++ .preview tag url preview :: after →
      let node := Page.nodeAfter policy assets (Windows.output earlier ++ before) output
      let written := Piece.previewTag policy assets tag preview
      (url ∉ Cue.registered (cues (Windows.output earlier)) →
        node = some { tag := written, shown := some preview.dataUri }) ∧
      (url ∈ Cue.registered (cues (Windows.output earlier)) → node = some { tag := written })

namespace Document

variable {doc : Document} {asked : List Lookup} {events : List Event}

theorem registered_window (hfresh : doc.Fresh) (ha : doc.isActive = true)
    {earlier later : List Window} {window : Window}
    (hw : doc.windows source asked events = earlier ++ window :: later)
    {pending : List Registration} (hpending : Cue.entries (cues window.output) = pending) :
    Cue.entries (cues (doc.run source asked events).document.buffer.closed) =
        Cue.entries (cues (Windows.output earlier)) ++
          (pending ++ Cue.entries (cues (Windows.output later))) ∧
      (∀ url ∈ Cue.registered (cues (Windows.output earlier)),
        url ∉ (pending ++ Cue.entries (cues (Windows.output later))).map Registration.url) ∧
      ∀ url ∈ pending.map Registration.url, url ∉ Cue.registered (cues (Windows.output later)) := by
  obtain ⟨⟨-, hkept⟩, -⟩ := kept_course source hfresh ha asked events
  have hclosed : (doc.run source asked events).document.buffer.closed =
      Windows.output (doc.windows source asked events) := hkept.closed
  have hentries : Cue.entries (cues (Windows.output (doc.windows source asked events))) =
      Cue.entries (cues (Windows.output earlier)) ++
        (pending ++ Cue.entries (cues (Windows.output later))) := by
    rw [hw, Windows.output_split]
    simp [hpending]
  have hnodup := nodup_registered source hfresh ha asked events
  rw [Cue.registered, hentries, List.map_append] at hnodup
  obtain ⟨-, hrest, hearlier⟩ := List.nodup_append.mp hnodup
  rw [List.map_append] at hrest
  obtain ⟨-, -, hlater⟩ := List.nodup_append.mp hrest
  refine ⟨by rw [hclosed, hentries], ?_, ?_⟩
  · exact fun url hurl hagain => hearlier url hurl url hagain rfl
  · exact fun url hurl hagain => hlater url hurl url hagain rfl

theorem nodeAfter_window (hfresh : doc.Fresh) (ha : doc.isActive = true) (assets : Assets)
    {earlier later : List Window} {window : Window}
    (hw : doc.windows source asked events = earlier ++ window :: later)
    {before after : List Piece} {tag : StartTag} {url : Text} {preview : Preview}
    (hsplit : window.output = before ++ .preview tag url preview :: after) :
    .preview tag url preview ∈ (doc.run source asked events).document.buffer.closed ∧
      Page.nodeAfter doc.policy assets (Windows.output earlier ++ before)
          (doc.run source asked events).document.buffer.closed =
        some (({ tag := Piece.previewTag doc.policy assets tag preview } : Node).after
          (Cue.batches (cues after) ++ Cue.batches (cues (Windows.output later)))) := by
  obtain ⟨⟨-, hkept⟩, -⟩ := kept_course source hfresh ha asked events
  have hclosed : (doc.run source asked events).document.buffer.closed =
      Windows.output (doc.windows source asked events) := hkept.closed
  have houtput : (doc.run source asked events).document.buffer.closed =
      (Windows.output earlier ++ before) ++
        .preview tag url preview :: (after ++ Windows.output later) := by
    rw [hclosed, hw, Windows.output_split, hsplit]
    simp
  rw [houtput]
  refine ⟨by simp, ?_⟩
  rw [Page.nodeAfter_of_grow fun _ => rfl, cues_append, Cue.batches_append]

end Document

/-- The scripts of a document put the preview into every image with one in the window that registers
its url, and into none in later windows. -/
theorem preview_arrives (classify : Classifier) (settings : Settings) (url client : Text)
    (source : Source) (asked : List Lookup) (assets : Assets) (events : List Event)
    (ha : (Document.start classify settings url client).isActive = true)
    (hs : (Document.start classify settings url client).policy.mode = .scripted)
    (htrim : ∀ tag : StartTag, .token (.startTag tag) ∈ events → tag.element.isImage = true →
      ∀ value, tag.get? sourceAttribute = some value → Text.trim value = value) :
    let doc := Document.start classify settings url client
    ArriveByWindow source doc.policy assets (doc.windows source asked events)
      (doc.run source asked events).document.buffer.closed := by
  intro doc earlier window later hw
  have hfresh : doc.Fresh := Document.fresh_start ..
  obtain ⟨first, pending, due, hcues, hpending⟩ := Document.cues_window hfresh ha hw
  refine ⟨(Document.images_window hfresh ha hw).1, fun before tag image preview after hsplit => ?_⟩
  obtain ⟨hmem, hnode⟩ := Document.nodeAfter_window hfresh ha assets hw hsplit
  obtain ⟨⟨m, hm, ht⟩, hkey⟩ := Document.key?_of_mem hfresh ha hs htrim hmem assets
  have hwindow : Cue.entries (cues window.output) = pending := by
    rw [hcues]
    simp [entries_scriptsFor, entries_activationFor]
  obtain ⟨hentries, hearlier, hlater⟩ := Document.registered_window hfresh ha hw hwindow
  have hread : cues before ++ .image image :: cues after = cues window.output := by
    rw [hsplit, cues_append]
    rfl
  obtain ⟨hshown, hbehind⟩ := batches_behind (hread.trans hcues)
  rw [hbehind] at hnode
  refine ⟨fun hnew => ?_, fun hold => ?_⟩
  · have hregistered := (hpending hs image).mpr ⟨hshown, hnew⟩
    have hdata : ∀ entry ∈ pending, entry.url = image → entry.dataUri = preview.dataUri := by
      intro entry hentry hurl
      rw [← hurl] at ht
      refine Document.dataUri_eq hfresh ha hm ht (List.mem_append_left _ ?_)
      rw [hentries]
      simp [hentry]
    refine hnode.trans (congrArg some ?_)
    cases pending with
    | nil => contradiction
    | cons entry rest =>
      exact Node.after_of_mem hkey hregistered hdata (hlater image hregistered)
  · -- no script behind the image registers its url once more
    refine hnode.trans (congrArg some (Node.after_of_not_mem hkey ?_))
    have hagain := hearlier image hold
    cases pending <;> exact hagain

theorem Sample.trimmed (tag : StartTag)
    (htag : .token (.startTag tag) ∈ Sample.events ++ [.finish])
    (himage : tag.element.isImage = true) (value : Text)
    (hvalue : tag.get? sourceAttribute = some value) : Text.trim value = value := by
  simp only [events, image, List.cons_append, List.nil_append, List.mem_cons, Event.token.injEq,
    Token.startTag.injEq, List.not_mem_nil, or_false, reduceCtorEq, false_or] at htag
  obtain rfl | rfl | rfl | rfl | rfl := htag
  · exact absurd himage (by decide)
  · exact absurd himage (by decide)
  all_goals
    obtain rfl := Option.some.inj hvalue
    rfl

theorem sample_preview_arrives :
    Sample.document.isActive = true ∧ Sample.document.policy.mode = .scripted ∧
      ArriveByWindow Sample.source Sample.document.policy .usual
        (Sample.document.windows Sample.source [] (Sample.events ++ [.finish]))
        Sample.output :=
  ⟨rfl, rfl, preview_arrives Sample.classify Sample.settings [] [] Sample.source [] .usual
    (Sample.events ++ [Event.finish]) rfl rfl Sample.trimmed⟩

/-- Not all images show their previews: one in a later window than its url shows none. -/
theorem not_all_arrive :
    ¬ ∀ (classify : Classifier) (settings : Settings) (url client : Text) (source : Source)
      (asked : List Lookup) (assets : Assets) (events : List Event),
      let doc := Document.start classify settings url client
      let last := (doc.run source asked events).document
      doc.isActive = true → doc.policy.mode = .scripted → last.finished = true →
      (∀ tag : StartTag, .token (.startTag tag) ∈ events → tag.element.isImage = true →
        ∀ value, tag.get? sourceAttribute = some value → Text.trim value = value) →
      AllArrive doc.policy assets last.buffer.closed := by
  intro h
  have hall := h Sample.classify Sample.settings [] [] Sample.source [] .usual
    (Sample.events ++ [.finish]) rfl rfl rfl Sample.trimmed
  -- the image in the second window, with the scripts for it in the first
  have hsplit : Sample.output = Sample.output.take 9 ++
      .preview (Sample.tag "a".toList) "a".toList Sample.preview :: Sample.output.drop 10 := by
    decide +kernel
  have hnode := hall _ _ _ _ _ hsplit
  revert hnode
  decide +kernel

end ImagePreview

import ImagePreview.Proofs.Document.Window

/-!
Lookups over a whole document. A url is looked up once, and its outcome decides about all of its
images, however often and in whatever windows they come.
-/
namespace ImagePreview

open Markup

namespace Document

variable (doc : Document) (source : Source) (asked : List Lookup)

/-- The url that is decided about at an event: that of a candidate among the images that are looked
at. -/
def subject? : Event → Option Text
  | .token (.startTag tag) => if doc.looksAt tag then candidate? doc.policy tag else none
  | _ => none

variable {doc source asked}

theorem policy_advance (event : Event) :
    (doc.advance source asked event).1.policy = doc.policy ∧
      (doc.advance source asked event).1.ledger.outcomes =
        (doc.ledgerAfter source asked event).outcomes := by
  cases ha : doc.isActive with
  | true =>
    obtain ⟨t, rfl⟩ | hc := event.token_or_closes
    · rw [advance_token ha]
      exact ⟨rfl, rfl⟩
    · rw [advance_closes ha hc]
      cases event with
      | token t => contradiction
      | flush | finish => exact ⟨rfl, rfl⟩
  | false =>
    cases event with
    | token t =>
      cases t with
      | startTag tag => simp [advance, startTag, pushToken, push, ledgerAfter, looksAt, ha]
      | endTag tag =>
        simp only [advance, endTag]
        split
        · exact ⟨rfl, rfl⟩
        · split <;> exact ⟨rfl, rfl⟩
      | text t => exact ⟨rfl, rfl⟩
    | flush | finish => simp [advance, closeWindow, ledgerAfter, ha]

theorem policy_run (events : List Event) :
    (doc.run source asked events).document.policy = doc.policy :=
  @course_induction source (fun _ next => next.policy = doc.policy)
    (fun _ m h _ => (policy_advance m.event).1.trans h) asked events [] doc rfl

theorem policy_of_mem_moments {events : List Event} {m : Moment}
    (hm : m ∈ doc.moments source asked events) : m.document.policy = doc.policy := by
  obtain ⟨earlier, later, hsplit⟩ := List.append_of_mem hm
  exact (@course_at source (fun _ next => next.policy = doc.policy)
    (fun _ m h _ => (policy_advance m.event).1.trans h) asked events [] doc rfl _ _ _ hsplit).1

theorem outcomes_ledgerAfter {tag : StartTag} (hl : doc.looksAt tag = true) :
    (doc.ledgerAfter source asked (.token (.startTag tag))).outcomes =
      (treat doc.policy source asked doc.ledger tag).ledger.outcomes := by
  cases ht : (treat doc.policy source asked doc.ledger tag).treatment with
  | preview url preview =>
    simp only [ledgerAfter, hl, ht, if_true]
    split
    · exact Ledger.outcomes_register preview
    · rfl
  | placeholder | none => simp [ledgerAfter, hl, ht]

theorem advance_of_no_subject {event : Event} (h : doc.subject? event = none) :
    (doc.advance source asked event).1.ledger.outcomes = doc.ledger.outcomes ∧
      doc.lookups source asked event = [] := by
  rw [(policy_advance event).2]
  cases event with
  | token t =>
    cases t with
    | startTag tag =>
      cases hl : doc.looksAt tag with
      | true =>
        rw [subject?, if_pos hl] at h
        simp [ledgerAfter, lookups, imageTrace, hl, treat_of_not_candidate h]
      | false => simp [ledgerAfter, lookups, imageTrace, hl]
    | endTag tag => exact ⟨rfl, rfl⟩
    | text t => exact ⟨rfl, rfl⟩
  | flush | finish => exact ⟨rfl, rfl⟩

theorem advance_of_subject {event : Event} {url : Text} (h : doc.subject? event = some url) :
    let found := doc.ledger.find doc.policy source asked url
    (doc.advance source asked event).1.ledger.outcomes = found.2.1.outcomes ∧
      doc.lookups source asked event = found.2.2 ∧
      (∀ p, found.1 = some p → doc.treatmentAt source asked event = .preview url p) ∧
      (found.1 = none → (doc.treatmentAt source asked event).shows = false) := by
  intro found
  rw [(policy_advance event).2]
  cases event with
  | token t =>
    cases t with
    | startTag tag =>
      cases hl : doc.looksAt tag with
      | true =>
        rw [subject?, if_pos hl] at h
        obtain ⟨htreatment, hledger, hlookups⟩ :=
          @treat_of_candidate _ source asked doc.ledger _ _ h
        have hat : doc.treatmentAt source asked (.token (.startTag tag)) =
            (treat doc.policy source asked doc.ledger tag).treatment := by
          rw [treatmentAt, treatment, if_pos hl]
        rw [hat, htreatment]
        refine ⟨?_, by rw [lookups, imageTrace, if_pos hl, hlookups], fun p hp => by rw [hp], fun hn => ?_⟩
        · rw [outcomes_ledgerAfter hl, hledger]
        · rw [hn]
          dsimp only
          split <;> rfl
      | false => simp [subject?, hl] at h
    | endTag tag => contradiction
    | text t => contradiction
  | flush | finish => contradiction

end Document

namespace Moment

variable (source : Source) (m : Moment)

def subject? : Option Text := m.document.subject? m.event

/-- Whether a treatment of the url follows from an outcome: it shows the preview, if there is
one. -/
def Follows (url : Text) : Option Preview → Prop
  | some preview => m.treatment source = .preview url preview
  | none => (m.treatment source).shows = false

variable {source m}

theorem lookups_trace : (m.trace source).lookups = m.document.lookups source m.asked m.event :=
  Document.lookups_advance m.event

theorem outcome?_of_no_subject (hm : m.subject? = none) (url : Text) :
    (m.next source).ledger.outcome? url = m.document.ledger.outcome? url :=
  congrArg (List.lookup url) (Document.advance_of_no_subject hm).1

theorem outcome?_of_subject {subject : Text} (hm : m.subject? = some subject) (url : Text) :
    (m.next source).ledger.outcome? url =
      (m.document.ledger.find m.document.policy source m.asked subject).2.1.outcome? url :=
  congrArg (List.lookup url) (Document.advance_of_subject hm).1

theorem outcome?_next {url : Text} {outcome : Option Preview}
    (h : m.document.ledger.outcome? url = some outcome) :
    (m.next source).ledger.outcome? url = some outcome := by
  cases hm : m.subject? with
  | none => rw [outcome?_of_no_subject hm, h]
  | some subject => rw [outcome?_of_subject hm, Ledger.outcome?_find h]

/-- At most one lookup is made, for a url of which nothing was known, and then something is. -/
theorem lookups_next :
    (m.trace source).lookups = [] ∨ ∃ url,
      (m.trace source).lookups = [m.document.policy.lookup url] ∧
        m.document.ledger.outcome? url = none ∧
        ((m.next source).ledger.outcome? url).isSome = true := by
  rw [lookups_trace]
  cases hm : m.subject? with
  | none => exact Or.inl (Document.advance_of_no_subject hm).2
  | some subject =>
    rw [(Document.advance_of_subject hm).2.1]
    obtain hnone | ⟨hone, hnew⟩ := Ledger.lookups_find
    · exact Or.inl hnone
    · refine Or.inr ⟨subject, hone, hnew, ?_⟩
      rw [outcome?_of_subject hm, Ledger.outcome?_find_self]
      rfl

theorem answer_next {url : Text} {preview : Preview}
    (h : (m.next source).ledger.outcome? url = some (some preview)) :
    m.document.ledger.outcome? url = some (some preview) ∨
      (m.trace source).lookups = [m.document.policy.lookup url] ∧
        source m.asked (m.document.policy.lookup url) = .ok (some preview) := by
  cases hm : m.subject? with
  | none => exact Or.inl (by rw [← h, outcome?_of_no_subject hm])
  | some subject =>
    rw [outcome?_of_subject hm] at h
    by_cases hurl : url = subject
    · rw [hurl, Ledger.outcome?_find_self, Option.some.injEq] at h
      rw [hurl, lookups_trace, (Document.advance_of_subject hm).2.1]
      exact Ledger.answer_of_find h
    · exact Or.inl (by rw [← h, Ledger.outcome?_find_of_ne hurl])

/-- A decision follows from an outcome that is known from then on. -/
theorem follows_next {url : Text} (hm : m.subject? = some url) :
    ∃ outcome, (m.next source).ledger.outcome? url = some outcome ∧
      m.Follows source url outcome := by
  obtain ⟨-, -, hsome, hnone⟩ := @Document.advance_of_subject _ source m.asked _ _ hm
  refine ⟨_, by rw [outcome?_of_subject hm, Ledger.outcome?_find_self], ?_⟩
  cases hfound : (m.document.ledger.find m.document.policy source m.asked url).1 with
  | some preview => exact hsome preview hfound
  | none => exact hnone hfound

theorem candidate_of_preview {url : Text} {preview : Preview}
    (h : m.treatment source = .preview url preview) :
    ∃ tag, m.event = .token (.startTag tag) ∧ m.document.looksAt tag = true ∧
      candidate? m.document.policy tag = some url := by
  rw [treatment] at h
  cases he : m.event with
  | token t =>
    cases t with
    | startTag tag =>
      rw [he] at h
      cases hl : m.document.looksAt tag with
      | true =>
        simp only [Document.treatmentAt, Document.treatment, hl, if_true] at h
        exact ⟨tag, rfl, hl, candidate_of_treat h⟩
      | false => simp [Document.treatmentAt, Document.treatment, hl] at h
    | endTag tag => rw [he] at h; contradiction
    | text t => rw [he] at h; contradiction
  | flush | finish => rw [he] at h; contradiction

theorem subject?_of_preview {url : Text} {preview : Preview}
    (h : m.treatment source = .preview url preview) : m.subject? = some url := by
  obtain ⟨tag, he, hl, hc⟩ := candidate_of_preview h
  rw [subject?, he, Document.subject?, if_pos hl, hc]

theorem Follows.eq_some {url : Text} {outcome : Option Preview} {preview : Preview}
    (h : m.Follows source url outcome) (ht : m.treatment source = .preview url preview) :
    outcome = some preview := by
  cases outcome with
  | some known => rw [(Treatment.preview.inj (ht.symm.trans h)).2]
  | none =>
    rw [Follows, ht] at h
    contradiction

end Moment

structure Known (source : Source) (policy : Policy) (ms : List Moment) (doc : Document) : Prop where
  policy_eq : doc.policy = policy
  once : (ms.flatMap fun m => (m.trace source).lookups.map Lookup.url).Nodup
  asked : ∀ m ∈ ms, ∀ lookup ∈ (m.trace source).lookups,
    (doc.ledger.outcome? lookup.url).isSome = true
  answered : ∀ url preview, doc.ledger.outcome? url = some (some preview) →
    ∃ earlier m later, ms = earlier ++ m :: later ∧
      (m.trace source).lookups = [policy.lookup url] ∧
      source m.asked (policy.lookup url) = .ok (some preview)
  followed : ∀ m ∈ ms, ∀ url, m.subject? = some url →
    ∃ outcome, doc.ledger.outcome? url = some outcome ∧ m.Follows source url outcome

namespace Known

variable {source : Source} {policy : Policy} {ms : List Moment} {m : Moment}

theorem nil (source : Source) {doc : Document} (hfresh : doc.Fresh) :
    Known source doc.policy [] doc := by
  refine ⟨rfl, List.nodup_nil, by simp, fun url p h => ?_, by simp⟩
  rw [hfresh.ledger] at h
  contradiction

theorem next (h : Known source policy ms m.document) :
    Known source policy (ms ++ [m]) (m.next source) := by
  have hpolicy := h.policy_eq
  refine ⟨?_, ?_, ?_, ?_, ?_⟩
  · rw [← hpolicy]
    exact (Document.policy_advance m.event).1
  · rw [List.flatMap_append, List.flatMap_singleton]
    obtain hnone | ⟨url, hone, hnew, -⟩ := @Moment.lookups_next source m
    · simpa [hnone] using h.once
    · rw [hone]
      refine List.nodup_append.mpr ⟨h.once, by simp, ?_⟩
      rintro known hknown _ hurl rfl
      obtain ⟨x, hx, hmap⟩ := List.mem_flatMap.mp hknown
      obtain ⟨lookup, hlookup, rfl⟩ := List.mem_map.mp hmap
      have hsome := h.asked x hx lookup hlookup
      have heq : lookup.url = url := by simpa [Policy.lookup] using hurl
      rw [heq, hnew] at hsome
      contradiction
  · intro x hx lookup hlookup
    obtain hx | hx := List.mem_append.mp hx
    · obtain ⟨outcome, houtcome⟩ := Option.isSome_iff_exists.mp (h.asked x hx lookup hlookup)
      rw [Moment.outcome?_next houtcome]
      rfl
    · rw [List.mem_singleton.mp hx] at hlookup
      obtain hnone | ⟨url, hone, -, hsome⟩ := @Moment.lookups_next source m
      · rw [hnone] at hlookup
        contradiction
      · rw [hone] at hlookup
        rw [List.mem_singleton.mp hlookup]
        exact hsome
  · intro url preview hknown
    obtain hold | ⟨hone, hanswer⟩ := Moment.answer_next hknown
    · obtain ⟨earlier, x, later, rfl, hx⟩ := h.answered url preview hold
      exact ⟨earlier, x, later ++ [m], by simp, hx⟩
    · rw [hpolicy] at hone hanswer
      exact ⟨ms, m, [], rfl, hone, hanswer⟩
  · intro x hx url hurl
    obtain hx | hx := List.mem_append.mp hx
    · obtain ⟨outcome, houtcome, hfollows⟩ := h.followed x hx url hurl
      exact ⟨outcome, Moment.outcome?_next houtcome, hfollows⟩
    · rw [List.mem_singleton.mp hx] at hurl ⊢
      exact Moment.follows_next hurl

theorem preview_unique {doc : Document} (h : Known source policy ms doc) {x y : Moment}
    (hx : x ∈ ms) (hy : y ∈ ms) {url : Text} {p q : Preview}
    (hp : x.treatment source = .preview url p) (hq : y.treatment source = .preview url q) :
    p = q := by
  obtain ⟨a, ha, hxa⟩ := h.followed x hx url (Moment.subject?_of_preview hp)
  obtain ⟨b, hb, hyb⟩ := h.followed y hy url (Moment.subject?_of_preview hq)
  rw [ha, Option.some.injEq] at hb
  rw [← hb] at hyb
  exact Option.some.inj ((hxa.eq_some hp).symm.trans (hyb.eq_some hq))

end Known

/-- A url is looked up at most once in a document, and one outcome decides about all of its images:
either they all show the preview that the source answered to the one lookup, or none of them shows
any. -/
theorem lookup_once (classify : Classifier) (settings : Settings) (url client : Text)
    (source : Source) (asked : List Lookup) (events : List Event) :
    let doc := Document.start classify settings url client
    let ms := doc.moments source asked events
    let lookups := (doc.run source asked events).trace.lookups
    (lookups.map Lookup.url).Nodup ∧
      ∀ image,
        (∃ preview,
          (∃ before after, lookups = before ++ doc.policy.lookup image :: after ∧
            source (asked ++ before) (doc.policy.lookup image) = .ok (some preview)) ∧
          ∀ m ∈ ms, m.subject? = some image → m.treatment source = .preview image preview) ∨
        ∀ m ∈ ms, m.subject? = some image → (m.treatment source).shows = false := by
  intro doc ms lookups
  have hknown := Document.course_induction (fun ms m h _ => Known.next h) asked events
    (Known.nil source (Document.fresh_start classify settings url client))
  rw [List.nil_append] at hknown
  have hlookups : lookups = ms.flatMap fun m => (m.trace source).lookups :=
    Document.lookups_run events
  refine ⟨by rw [hlookups, List.map_flatMap]; exact hknown.once, fun image => ?_⟩
  cases hlast : (doc.run source asked events).document.ledger.outcome? image with
  | some outcome =>
    have hfollows : ∀ m ∈ ms, m.subject? = some image → m.Follows source image outcome := by
      intro m hm himage
      obtain ⟨found, hfound, hfollows⟩ := hknown.followed m hm image himage
      rw [hlast, Option.some.injEq] at hfound
      rwa [hfound]
    cases outcome with
    | some preview =>
      obtain ⟨earlier, m, later, hm, hone, hanswer⟩ := hknown.answered image preview hlast
      rw [Document.asked_moments hm] at hanswer
      have hsplit : lookups = earlier.flatMap (fun x => (x.trace source).lookups) ++
          doc.policy.lookup image :: later.flatMap fun x => (x.trace source).lookups := by
        rw [hlookups, show ms = earlier ++ m :: later from hm, List.flatMap_append,
          List.flatMap_cons, hone, List.singleton_append]
      exact Or.inl ⟨preview, ⟨_, _, hsplit, hanswer⟩, hfollows⟩
    | none => exact Or.inr hfollows
  | none =>
    refine Or.inr fun m hm himage => ?_
    obtain ⟨found, hfound, -⟩ := hknown.followed m hm image himage
    rw [hlast] at hfound
    contradiction

end ImagePreview

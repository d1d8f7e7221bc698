import ImagePreview.Proofs.Document.Apart
import ImagePreview.Proofs.Scripts.Register
import Mathlib.Data.List.Forall2

/-!
Faults of the source of previews. All that a document takes from an answer is the preview in it, if
its size is admitted; so a fault, an answer without a preview and a preview of another size are the
same to it. Where the number of previews has no limit, what is answered for one url has no part in
what becomes of the images of the others.
-/
namespace ImagePreview

open Markup

section Congruence

variable {f g : Lookup → Answer} {policy : Policy}

theorem Ledger.find_congr {url : Text}
    (h : policy.outcome (f (policy.lookup url)) = policy.outcome (g (policy.lookup url)))
    (ledger : Ledger) (asked others : List Lookup) :
    ledger.find policy (.steady f) asked url = ledger.find policy (.steady g) others url := by
  simp only [find, Source.steady, h]

theorem treat_congr {tag : StartTag}
    (h : ∀ url, candidate? policy tag = some url →
      policy.outcome (f (policy.lookup url)) = policy.outcome (g (policy.lookup url)))
    (ledger : Ledger) (asked others : List Lookup) :
    treat policy (.steady f) asked ledger tag = treat policy (.steady g) others ledger tag := by
  cases hc : candidate? policy tag with
  | none => rw [treat_of_not_candidate hc, treat_of_not_candidate hc]
  | some url => simp only [treat, hc, Ledger.find_congr (h url hc) ledger asked others]

namespace Document

variable {doc : Document}

theorem advance_congr {event : Event}
    (h : ∀ url, doc.subject? event = some url →
      doc.policy.outcome (f (doc.policy.lookup url)) =
        doc.policy.outcome (g (doc.policy.lookup url)))
    (asked others : List Lookup) :
    doc.advance (.steady f) asked event = doc.advance (.steady g) others event := by
  cases event with
  | token t =>
    cases t with
    | startTag tag =>
      cases hl : doc.looksAt tag with
      | true =>
        rw [advance, advance, startTag_of_looksAt hl, startTag_of_looksAt hl]
        have htreat : treat doc.policy (.steady f) asked doc.ledger tag =
            treat doc.policy (.steady g) others doc.ledger tag :=
          treat_congr (fun url hc => h url (by rw [subject?, if_pos hl, hc])) doc.ledger asked
            others
        simp only [image, htreat]
      | false =>
        cases ha : doc.isActive with
        | true =>
          rw [advance, advance, startTag_of_not_looksAt ha hl, startTag_of_not_looksAt ha hl]
        | false => simp [advance, startTag, ha]
    | endTag tag => rfl
    | text t => rfl
  | flush | finish => rfl

theorem isActive_advance {source : Source} {asked : List Lookup} (event : Event) :
    (doc.advance source asked event).1.isActive = doc.isActive := by
  cases ha : doc.isActive with
  | true =>
    have hstays : doc.Stays doc := ⟨ha, rfl, rfl⟩
    have hnext : doc.Stays (Moment.next source ⟨doc, asked, event⟩) := Stays.next hstays
    exact hnext.active
  | false =>
    obtain ⟨t, rfl⟩ | hc := event.token_or_closes
    · obtain ⟨depth, mark, hadvance⟩ := @advance_token_of_inactive doc source asked ha t
      rw [hadvance]
      exact ha
    · rw [advance_closes_of_inactive ha hc]
      exact ha

theorem subject?_of_inactive (ha : doc.isActive = false) (event : Event) :
    doc.subject? event = none := by
  cases event with
  | token t => cases t <;> simp [subject?, looksAt, ha]
  | flush | finish => rfl

/-- Answers that count the same have the same course. -/
theorem run_congr
    (h : doc.isActive = true → ∀ url, doc.policy.outcome (f (doc.policy.lookup url)) =
      doc.policy.outcome (g (doc.policy.lookup url)))
    (asked : List Lookup) (events : List Event) :
    doc.run (.steady f) asked events = doc.run (.steady g) asked events ∧
      doc.moments (.steady f) asked events = doc.moments (.steady g) asked events := by
  induction events generalizing doc asked with
  | nil => exact ⟨rfl, rfl⟩
  | cons event rest ih =>
    cases hf : doc.finished with
    | true =>
      rw [moments_of_finished hf, moments_of_finished hf, run, run, step, step, hf]
      exact ⟨rfl, rfl⟩
    | false =>
      have hsame : doc.advance (.steady f) asked event = doc.advance (.steady g) asked event := by
        refine advance_congr (fun url hurl => ?_) asked asked
        cases ha : doc.isActive with
        | true => exact h ha url
        | false =>
          rw [subject?_of_inactive ha] at hurl
          contradiction
      have hnext : (Moment.next (.steady f) ⟨doc, asked, event⟩) =
          Moment.next (.steady g) ⟨doc, asked, event⟩ := congrArg Prod.fst hsame
      have htrace : (Moment.trace (.steady f) ⟨doc, asked, event⟩) =
          Moment.trace (.steady g) ⟨doc, asked, event⟩ := congrArg Prod.snd hsame
      rw [run_cons hf, run_cons hf, moments_cons hf, moments_cons hf]
      dsimp only
      rw [← hnext, ← htrace]
      have hpolicy : (Moment.next (.steady f) ⟨doc, asked, event⟩).policy = doc.policy :=
        (policy_advance event).1
      have hactive : (Moment.next (.steady f) ⟨doc, asked, event⟩).isActive = doc.isActive :=
        isActive_advance event
      obtain ⟨hrun, hmoments⟩ := @ih (Moment.next (.steady f) ⟨doc, asked, event⟩)
        (by rw [hpolicy, hactive]; exact h)
        (asked ++ (Moment.trace (.steady f) ⟨doc, asked, event⟩).lookups)
      rw [hrun, hmoments]
      exact ⟨rfl, rfl⟩

end Document
end Congruence

namespace Ledger

def without (url : Text) (ledger : Ledger) : Ledger where
  outcomes := ledger.outcomes.filter fun entry => entry.1 ≠ url
  registered := ledger.registered.filter fun registered => registered ≠ url
  pending := ledger.pending.filter fun entry => entry.url ≠ url

variable {ledger : Ledger} {u url : Text}

theorem outcome?_without (hne : url ≠ u) :
    (ledger.without u).outcome? url = ledger.outcome? url :=
  lookup_filter (fun outcome => by simpa using hne) ledger.outcomes

theorem isRegistered_without (hne : url ≠ u) :
    (ledger.without u).isRegistered url = ledger.isRegistered url := by
  simp [isRegistered, without, hne]

theorem without_enter (hne : url ≠ u) (outcome : Option Preview) :
    (ledger.enter url outcome).without u = (ledger.without u).enter url outcome := by
  rw [enter, enter, outcome?_without hne]
  split
  · rfl
  · simp [without, hne]

theorem without_enter_self (outcome : Option Preview) :
    (ledger.enter u outcome).without u = ledger.without u := by
  rw [enter]
  split
  · rfl
  · simp [without]

theorem without_register (hne : url ≠ u) (preview : Preview) :
    (ledger.register url preview).without u = (ledger.without u).register url preview := by
  rw [register, register, isRegistered_without hne]
  split
  · rfl
  · simp [without, hne]

theorem without_register_self (preview : Preview) :
    (ledger.register u preview).without u = ledger.without u := by
  rw [register]
  split
  · rfl
  · simp [without]

theorem previews_without :
    (ledger.without u).previews = ledger.previews.filter fun pair => pair.1 ≠ u := by
  simp only [previews, without]
  induction ledger.outcomes with
  | nil => rfl
  | cons entry rest ih =>
    obtain ⟨key, outcome⟩ := entry
    by_cases hkey : key = u <;> cases outcome <;> simpa [hkey] using ih

variable {policy : Policy} {source : Source} {asked : List Lookup}

/-- Without a limit, what is found for a url does not hang on another one. -/
theorem find_without (hm : policy.settings.maxIndex < 0) (hne : url ≠ u) :
    (ledger.without u).find policy source asked url =
      ((ledger.find policy source asked url).1,
        (ledger.find policy source asked url).2.1.without u,
        (ledger.find policy source asked url).2.2) := by
  have hallows (count : Nat) : policy.settings.allowsIndex count = true := by
    simp [Settings.allowsIndex, hm]
  rw [find, find, outcome?_without hne]
  split
  · rfl
  · simp [hallows, without_enter hne]

theorem without_find_self :
    (ledger.find policy source asked u).2.1.without u = ledger.without u := by
  rw [find]
  split
  · rfl
  · split <;> exact without_enter_self _

end Ledger

section Treat

variable {policy : Policy} {source : Source} {asked : List Lookup} {ledger : Ledger}
  {tag : StartTag} {u : Text}

theorem treat_without (source : Source) (asked : List Lookup) (ledger : Ledger)
    (hm : policy.settings.maxIndex < 0) (hne : candidate? policy tag ≠ some u) :
    treat policy source asked (ledger.without u) tag =
      { treat policy source asked ledger tag with
        ledger := (treat policy source asked ledger tag).ledger.without u } := by
  cases hc : candidate? policy tag with
  | none => simp only [treat_of_not_candidate hc]
  | some url =>
    have hurl : url ≠ u := fun he => hne (by rw [hc, he])
    simp only [treat, hc, Ledger.find_without hm hurl]
    cases (ledger.find policy source asked url).1 with
    | some preview => rfl
    | none =>
      dsimp only
      split <;> rfl

theorem without_treat_self (source : Source) (asked : List Lookup) (ledger : Ledger)
    (hc : candidate? policy tag = some u) :
    (treat policy source asked ledger tag).ledger.without u = ledger.without u := by
  rw [(treat_of_candidate hc).2.1]
  exact Ledger.without_find_self

variable {f g : Lookup → Answer} {other : Ledger}

theorem treat_alike (h : ∀ lookup : Lookup, lookup.url ≠ u → f lookup = g lookup)
    (hm : policy.settings.maxIndex < 0) (hl : ledger.without u = other.without u)
    (hne : candidate? policy tag ≠ some u) (asked others : List Lookup) :
    let x := treat policy (.steady f) asked ledger tag
    let y := treat policy (.steady g) others other tag
    x.treatment = y.treatment ∧ x.trace = y.trace ∧ x.ledger.without u = y.ledger.without u := by
  intro x y
  have hanswers : ∀ url, candidate? policy tag = some url →
      policy.outcome (f (policy.lookup url)) = policy.outcome (g (policy.lookup url)) := by
    intro url hc
    have hurl : (policy.lookup url).url ≠ u := by
      rintro rfl
      exact hne hc
    rw [h _ hurl]
  have hx := treat_without (.steady f) asked ledger hm hne
  have hy := treat_without (.steady g) others other hm hne
  rw [hl, treat_congr hanswers _ asked others, hy] at hx
  obtain ⟨ht, hledger, htrace⟩ := Treated.mk.inj hx
  exact ⟨ht.symm, htrace.symm, hledger.symm⟩

end Treat

namespace Document

theorem without_ledgerAfter {source : Source} {asked : List Lookup} {doc : Document} {u : Text}
    {event : Event} (hu : doc.subject? event = some u) :
    (doc.ledgerAfter source asked event).without u = doc.ledger.without u := by
  cases event with
  | token t =>
    cases t with
    | startTag tag =>
      cases hl : doc.looksAt tag with
      | true =>
        rw [subject?, if_pos hl] at hu
        have htreated := without_treat_self source asked doc.ledger hu
        simp only [ledgerAfter, hl, if_true]
        cases ht : (treat doc.policy source asked doc.ledger tag).treatment with
        | preview url preview =>
          have hc := candidate_of_treat ht
          rw [hu, Option.some.injEq] at hc
          dsimp only
          split
          · rw [← hc, Ledger.without_register_self, htreated]
          · exact htreated
        | placeholder | none => exact htreated
      | false => simp [subject?, hl] at hu
    | endTag tag => contradiction
    | text t => contradiction
  | flush | finish => contradiction

/-- Documents that are the same but for what they know about a url, and for their output. -/
structure Alike (u : Text) (a b : Document) : Prop where
  policy : a.policy = b.policy
  status : a.status = b.status
  noscriptDepth : a.noscriptDepth = b.noscriptDepth
  finished : a.finished = b.finished
  ledger : a.ledger.without u = b.ledger.without u

theorem Alike.refl (u : Text) (doc : Document) : doc.Alike u doc := ⟨rfl, rfl, rfl, rfl, rfl⟩

namespace Alike

variable {f g : Lookup → Answer} {a b : Document} {u : Text} {asked others : List Lookup}

theorem looksAt (hab : a.Alike u b) (tag : StartTag) : a.looksAt tag = b.looksAt tag := by
  simp only [Document.looksAt, isActive, hab.status, hab.noscriptDepth]

theorem subject? (hab : a.Alike u b) (event : Event) : a.subject? event = b.subject? event := by
  cases event with
  | token t =>
    cases t with
    | startTag tag => simp only [Document.subject?, hab.looksAt, hab.policy]
    | endTag tag => rfl
    | text t => rfl
  | flush | finish => rfl

theorem treatmentAt (hab : a.Alike u b)
    (h : ∀ lookup : Lookup, lookup.url ≠ u → f lookup = g lookup)
    (hm : a.policy.settings.maxIndex < 0) {event : Event} (hne : a.subject? event ≠ some u) :
    a.treatmentAt (.steady f) asked event = b.treatmentAt (.steady g) others event := by
  cases event with
  | token t =>
    cases t with
    | startTag tag =>
      simp only [Document.treatmentAt, treatment, ← hab.looksAt, ← hab.policy]
      cases hl : a.looksAt tag with
      | true =>
        rw [Document.subject?, if_pos hl] at hne
        simpa using (treat_alike h hm hab.ledger hne asked others).1
      | false => rfl
    | endTag tag => rfl
    | text t => rfl
  | flush | finish => rfl

theorem ledgerAfter (hab : a.Alike u b)
    (h : ∀ lookup : Lookup, lookup.url ≠ u → f lookup = g lookup)
    (hm : a.policy.settings.maxIndex < 0) (event : Event) :
    (a.ledgerAfter (.steady f) asked event).without u =
      (b.ledgerAfter (.steady g) others event).without u := by
  -- an image of the url itself may be treated in two ways, but only what is left out tells them apart
  by_cases hu : a.subject? event = some u
  · rw [without_ledgerAfter hu, without_ledgerAfter (hab.subject? event ▸ hu), hab.ledger]
  cases event with
  | token t =>
    cases t with
    | startTag tag =>
      simp only [Document.ledgerAfter, ← hab.looksAt, ← hab.policy]
      cases hl : a.looksAt tag with
      | true =>
        rw [Document.subject?, if_pos hl] at hu
        obtain ⟨ht, -, hledger⟩ := treat_alike h hm hab.ledger hu asked others
        rw [← ht]
        simp only [if_true]
        cases hx : (treat a.policy (.steady f) asked a.ledger tag).treatment with
        | preview url preview =>
          have hurl : url ≠ u := fun he => hu (he ▸ candidate_of_treat hx)
          dsimp only
          split
          · rw [Ledger.without_register hurl, Ledger.without_register hurl, hledger]
          · exact hledger
        | placeholder | none => exact hledger
      | false => exact hab.ledger
    | endTag tag => exact hab.ledger
    | text t => exact hab.ledger
  | flush | finish => exact hab.ledger

theorem trace (hab : a.Alike u b)
    (h : ∀ lookup : Lookup, lookup.url ≠ u → f lookup = g lookup)
    (hm : a.policy.settings.maxIndex < 0) {t : Token} (hne : a.subject? (.token t) ≠ some u) :
    (a.advance (.steady f) asked (.token t)).2 = (b.advance (.steady g) others (.token t)).2 := by
  rw [trace_advance, trace_advance]
  cases t with
  | startTag tag =>
    simp only [← hab.looksAt, ← hab.policy]
    cases hl : a.looksAt tag with
    | true =>
      rw [Document.subject?, if_pos hl] at hne
      simpa using (treat_alike h hm hab.ledger hne asked others).2.1
    | false => rfl
  | endTag tag => rfl
  | text t => rfl

theorem depthAfter (hab : a.Alike u b) (t : Token) : a.depthAfter t = b.depthAfter t := by
  cases t <;> simp only [Document.depthAfter, hab.noscriptDepth]

theorem next (hab : a.Alike u b) (ha : a.isActive = true)
    (h : ∀ lookup : Lookup, lookup.url ≠ u → f lookup = g lookup)
    (hm : a.policy.settings.maxIndex < 0) (event : Event) :
    (Moment.next (.steady f) ⟨a, asked, event⟩).Alike u
      (Moment.next (.steady g) ⟨b, others, event⟩) := by
  have hb : b.isActive = true := by rw [isActive, ← hab.status]; exact ha
  obtain ⟨t, rfl⟩ | hc := event.token_or_closes
  · rw [Moment.next_of_token ha rfl, Moment.next_of_token hb rfl]
    exact ⟨hab.policy, hab.status, hab.depthAfter t, hab.finished, hab.ledgerAfter h hm _⟩
  · rw [Moment.next_of_closes ha hc, Moment.next_of_closes hb hc]
    refine ⟨hab.policy, hab.status, hab.noscriptDepth, ?_, ?_⟩
    · simp only [hab.finished]
    · exact congrArg Ledger.settle hab.ledger

end Alike
end Document

structure Moment.Matches (f g : Lookup → Answer) (u : Text) (x y : Moment) : Prop where
  event : x.event = y.event
  subject : x.subject? = y.subject?
  treatment : x.subject? ≠ some u → x.treatment (.steady f) = y.treatment (.steady g)
  unit : x.subject? ≠ some u → x.unit (.steady f) = y.unit (.steady g)
  records : x.subject? ≠ some u → ∀ t, x.event = .token t →
    (x.trace (.steady f)).log.records = (y.trace (.steady g)).log.records

namespace Document

variable {f g : Lookup → Answer} {u : Text}

theorem Alike.matches {a b : Document} (hab : a.Alike u b)
    (h : ∀ lookup : Lookup, lookup.url ≠ u → f lookup = g lookup)
    (hm : a.policy.settings.maxIndex < 0) (asked others : List Lookup) (event : Event) :
    Moment.Matches f g u ⟨a, asked, event⟩ ⟨b, others, event⟩ where
  event := rfl
  subject := hab.subject? event
  treatment hne := hab.treatmentAt h hm hne
  unit hne := by
    cases event with
    | token t =>
      cases t with
      | startTag tag =>
        have ht : a.treatment (.steady f) asked tag = b.treatment (.steady g) others tag :=
          hab.treatmentAt h hm hne
        simp only [Moment.unit, Document.unit, ht]
      | endTag tag => rfl
      | text t => rfl
    | flush | finish => rfl
  records hne t ht := by
    obtain rfl : event = .token t := ht
    rw [Moment.trace, Moment.trace, hab.trace h hm hne]

/-- The courses of two documents that are alike match, and end with documents that are alike. -/
theorem Alike.course {a b : Document} (hab : a.Alike u b) (ha : a.isActive = true)
    (h : ∀ lookup : Lookup, lookup.url ≠ u → f lookup = g lookup)
    (hm : a.policy.settings.maxIndex < 0) (asked others : List Lookup) (events : List Event) :
    List.Forall₂ (Moment.Matches f g u) (a.moments (.steady f) asked events)
        (b.moments (.steady g) others events) ∧
      (a.run (.steady f) asked events).document.Alike u
        (b.run (.steady g) others events).document := by
  induction events generalizing a b asked others with
  | nil => exact ⟨.nil, hab⟩
  | cons event rest ih =>
    cases hf : a.finished with
    | true =>
      have hother : b.finished = true := hab.finished ▸ hf
      rw [moments_of_finished hf, moments_of_finished hother, (run_of_finished hf _).1,
        (run_of_finished hother _).1]
      exact ⟨.nil, hab⟩
    | false =>
      have hother : b.finished = false := hab.finished ▸ hf
      have hstays : a.Stays a := ⟨ha, rfl, rfl⟩
      have hnext : a.Stays (Moment.next (.steady f) ⟨a, asked, event⟩) := Stays.next hstays
      rw [moments_cons hf, moments_cons hother, run_cons hf, run_cons hother]
      obtain ⟨hmoments, hlast⟩ := ih (hab.next ha h hm event) hnext.active
        (by rw [hnext.policy]; exact hm) _ _
      exact ⟨.cons (hab.matches h hm asked others event) hmoments, hlast⟩

theorem entries_alike {doc : Document} (hfresh : doc.Fresh) (ha : doc.isActive = true)
    (h : ∀ lookup : Lookup, lookup.url ≠ u → f lookup = g lookup)
    (hm : doc.policy.settings.maxIndex < 0) (asked : List Lookup) (events : List Event) :
    let x := (doc.run (.steady f) asked events).document
    let y := (doc.run (.steady g) asked events).document
    (Cue.entries (cues x.buffer.closed)).filter (fun entry => entry.url ≠ u) =
      (Cue.entries (cues y.buffer.closed)).filter fun entry => entry.url ≠ u := by
  intro x y
  obtain ⟨-, hlast⟩ := (Alike.refl u doc).course ha h hm asked asked events
  have hledger : x.ledger.without u = y.ledger.without u := hlast.ledger
  cases hs : doc.policy.mode with
  | scripted =>
    have hentries (f : Lookup → Answer) :
        let last := (doc.run (.steady f) asked events).document
        last.entries.filter (fun entry => entry.url ≠ u) =
          (last.ledger.without u).previews.map Registration.of := by
      intro last
      have hbooked := (booked_course (.steady f) hfresh ha hs asked events).1
      rw [hbooked.enrolled.entries, Ledger.previews_without, List.filter_map]
      rfl
    have hboth := (hentries f).trans (hledger ▸ (hentries g).symm)
    rw [entries, entries, List.filter_append, List.filter_append] at hboth
    have hpending : x.ledger.pending.filter (fun entry => entry.url ≠ u) =
        y.ledger.pending.filter fun entry => entry.url ≠ u := congrArg Ledger.pending hledger
    rw [hpending] at hboth
    exact List.append_cancel_right hboth
  | inline =>
    have hnone (f : Lookup → Answer) :
        Cue.entries (cues (doc.run (.steady f) asked events).document.buffer.closed) = [] := by
      obtain ⟨⟨hstays, hkept⟩, -⟩ := kept_course (.steady f) hfresh ha asked events
      have hregistered := hkept.accounted.registered
      rw [hkept.accounted.inline (by rw [hstays.policy, hs]), eq_comm,
        List.append_eq_nil_iff] at hregistered
      exact List.map_eq_nil_iff.mp hregistered.1
    rw [hnone f, hnone g]

end Document

def replaceAnswers (urls : Text → Bool) (answer reply : Lookup → Answer) : Lookup → Answer :=
  fun lookup => if urls lookup.url then reply lookup else answer lookup

/-- Faults of a source stay with the images that they are about. It is the same whether there is a
fault, no preview or one of a size that is not admitted. And if there is no limit on previews, what
is answered for one url changes nothing about the images of others and their registrations. -/
theorem faults_stay_local (classify : Classifier) (settings : Settings) (url client : Text)
    (answer : Lookup → Answer) (asked : List Lookup) (events : List Event) :
    let doc := Document.start classify settings url client
    let run := fun answer => doc.run (.steady answer) asked events
    let moments := fun answer => doc.moments (.steady answer) asked events
    (∀ (urls : Text → Bool) (fault : Lookup → LookupError) (outsized : Lookup → Preview),
      (∀ lookup, settings.limits.admits (outsized lookup).byteSize = false) →
      let missing := run (replaceAnswers urls answer fun _ => .ok none)
      run (replaceAnswers urls answer fun lookup => .error (fault lookup)) = missing ∧
        run (replaceAnswers urls answer fun lookup => .ok (some (outsized lookup))) = missing) ∧
    (settings.maxIndex < 0 → ∀ (u : Text) (other : Lookup → Answer),
      (∀ lookup : Lookup, lookup.url ≠ u → answer lookup = other lookup) →
      List.Forall₂ (Moment.Matches answer other u) (moments answer) (moments other) ∧
        (Cue.entries (cues (run answer).document.buffer.closed)).filter
            (fun entry => entry.url ≠ u) =
          (Cue.entries (cues (run other).document.buffer.closed)).filter
            fun entry => entry.url ≠ u) := by
  intro doc run moments
  have hfresh : doc.Fresh := Document.fresh_start ..
  have haccepted : doc.policy.accepted = settings.limits := rfl
  refine ⟨?_, fun hm u other h => ?_⟩
  · intro urls fault outsized houtsized missing
    -- whichever of the answers is given, its outcome is that there is no preview
    have hsame (reply : Lookup → Answer)
        (hreply : ∀ lookup, doc.policy.outcome (reply lookup) = none) :
        run (replaceAnswers urls answer reply) = missing := by
      refine (Document.run_congr (fun _ image => ?_) asked events).1
      cases hurl : urls (doc.policy.lookup image).url with
      | true =>
        simp only [replaceAnswers, hurl, if_true, hreply]
        rfl
      | false => simp [replaceAnswers, hurl]
    refine ⟨hsame _ fun lookup => rfl, hsame _ fun lookup => ?_⟩
    simp [Policy.outcome, haccepted, houtsized lookup]
  · cases ha : doc.isActive with
    | true =>
      exact ⟨((Document.Alike.refl u doc).course ha h hm asked asked events).1,
        Document.entries_alike hfresh ha h hm asked events⟩
    | false =>
      -- nothing is looked up in a document that is not active
      obtain ⟨hrun, hmoments⟩ : run answer = run other ∧ moments answer = moments other :=
        Document.run_congr (fun hactive => absurd (hactive.symm.trans ha) (by decide)) asked events
      refine ⟨?_, by simp only [run, hrun]⟩
      simp only [moments, ← hmoments]
      refine List.forall₂_same.mpr fun m hmem => ?_
      exact (Document.Alike.refl u m.document).matches h
        (by rw [Document.policy_of_mem_moments hmem]; exact hm) m.asked m.asked m.event

namespace Sample

def strict : Settings := { settings with limits := ⟨1, 1⟩ }

def outsized : Preview := .ofBytes "image/png".toList [0, 0]

def answering (answer : Answer) : Lookup → Answer :=
  replaceAnswers (fun url => url = "a".toList) generous fun _ => answer

def answered (answer : Lookup → Answer) : Document.Run :=
  (Document.start classify strict [] []).run (.steady answer) [] (events ++ [.finish])

def otherEntries (run : Document.Run) : List Registration :=
  (Cue.entries (cues run.document.buffer.closed)).filter fun entry => entry.url ≠ "a".toList

end Sample

theorem sample_faults_stay_local :
    let fault := Sample.answering (.error (.sourceUnavailable []))
    let missing := Sample.answering (.ok none)
    Sample.strict.limits.admits Sample.outsized.byteSize = false ∧
      Sample.answered fault = Sample.answered missing ∧
      Sample.answered (Sample.answering (.ok (some Sample.outsized))) = Sample.answered missing ∧
      Sample.strict.maxIndex < 0 ∧
      (∀ lookup : Lookup, lookup.url ≠ "a".toList → Sample.generous lookup = fault lookup) ∧
      Sample.otherEntries (Sample.answered Sample.generous) =
        [Registration.of ("b".toList, Sample.preview)] ∧
      Sample.otherEntries (Sample.answered Sample.generous) =
        Sample.otherEntries (Sample.answered fault) := by
  intro fault missing
  have hlarge : Sample.strict.limits.admits Sample.outsized.byteSize = false := by decide
  have hlimit : Sample.strict.maxIndex < 0 := by decide
  have hsame : ∀ lookup : Lookup, lookup.url ≠ "a".toList →
      Sample.generous lookup = fault lookup := by
    intro lookup hne
    rw [eq_comm]
    exact if_neg (by simpa using hne)
  obtain ⟨hreplace, hchange⟩ := faults_stay_local Sample.classify Sample.strict [] []
    Sample.generous [] (Sample.events ++ [.finish])
  obtain ⟨hfault, hsize⟩ := hreplace (fun url => url = "a".toList)
    (fun _ => .sourceUnavailable []) (fun _ => Sample.outsized) (fun _ => hlarge)
  have hentries : Sample.otherEntries (Sample.answered Sample.generous) =
      [Registration.of ("b".toList, Sample.preview)] := by decide +kernel
  have hothers := (hchange hlimit "a".toList fault hsame).2
  exact ⟨hlarge, hfault, hsize, hlimit, hsame, hentries, hothers⟩

end ImagePreview

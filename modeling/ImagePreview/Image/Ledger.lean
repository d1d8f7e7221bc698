import ImagePreview.Preview.Basic
import ImagePreview.Scripts.Block

/-!
What is known about the images of one document: the outcome of the one lookup for each url, and
which previews have been registered with the scripts.
-/
namespace ImagePreview

structure Ledger where
  /-- Outcomes in the order of their lookups, one for each url. -/
  outcomes : List (Text × Option Preview) := []
  registered : List Text := []
  /-- Registrations that no script has been written for yet. -/
  pending : List Registration := []
deriving DecidableEq

namespace Ledger

variable (ledger : Ledger) (url : Text)

/-- The outcome of looking the url up, if that was done: a preview, or none. -/
def outcome? : Option (Option Preview) := ledger.outcomes.lookup url

/-- Enter the outcome of a lookup; only the first one for a url is kept. -/
def enter (outcome : Option Preview) : Ledger :=
  if (ledger.outcome? url).isSome then ledger
  else { ledger with outcomes := ledger.outcomes ++ [(url, outcome)] }

def previewCount : Nat := ledger.outcomes.countP fun entry => entry.2.isSome

def isRegistered : Bool := ledger.registered.contains url

def register (preview : Preview) : Ledger :=
  if ledger.isRegistered url then ledger
  else
    { ledger with
      registered := ledger.registered ++ [url]
      pending := ledger.pending ++ [⟨url, preview.dataUri⟩] }

def settle : Ledger := { ledger with pending := [] }

variable {ledger url}

theorem enter_of_known {outcome : Option Preview} (h : (ledger.outcome? url).isSome = true) :
    ledger.enter url outcome = ledger := if_pos h

theorem outcomes_enter {outcome : Option Preview} (h : ledger.outcome? url = none) :
    (ledger.enter url outcome).outcomes = ledger.outcomes ++ [(url, outcome)] := by
  rw [enter, h]
  rfl

theorem outcome?_enter_self {outcome : Option Preview} (h : ledger.outcome? url = none) :
    (ledger.enter url outcome).outcome? url = some outcome := by
  have hfirst : ledger.outcomes.lookup url = none := h
  rw [outcome?, outcomes_enter h, List.lookup_append, hfirst]
  simp

theorem outcome?_enter_of_ne {outcome : Option Preview} {other : Text} (hne : other ≠ url) :
    (ledger.enter url outcome).outcome? other = ledger.outcome? other := by
  cases h : ledger.outcome? url with
  | some known => rw [enter_of_known (by rw [h]; rfl)]
  | none =>
    have hb : (other == url) = false := by simpa using hne
    rw [outcome?, outcomes_enter h, List.lookup_append]
    simp [outcome?, List.lookup_cons, hb]

@[simp] theorem registered_enter (outcome : Option Preview) :
    (ledger.enter url outcome).registered = ledger.registered := by
  rw [enter]
  split <;> rfl

@[simp] theorem pending_enter (outcome : Option Preview) :
    (ledger.enter url outcome).pending = ledger.pending := by
  rw [enter]
  split <;> rfl

@[simp] theorem outcomes_register (preview : Preview) :
    (ledger.register url preview).outcomes = ledger.outcomes := by
  rw [register]
  split <;> rfl

theorem register_of_registered {preview : Preview} (h : url ∈ ledger.registered) :
    ledger.register url preview = ledger :=
  if_pos (by simpa [isRegistered] using h)

theorem register_of_new {preview : Preview} (h : url ∉ ledger.registered) :
    ledger.register url preview =
      { ledger with
        registered := ledger.registered ++ [url]
        pending := ledger.pending ++ [⟨url, preview.dataUri⟩] } :=
  if_neg (by simpa [isRegistered] using h)

theorem register_congr {a b : Ledger} (hr : a.registered = b.registered)
    (hp : a.pending = b.pending) (url : Text) (preview : Preview) :
    (a.register url preview).registered = (b.register url preview).registered ∧
      (a.register url preview).pending = (b.register url preview).pending := by
  rw [register, register, isRegistered, isRegistered, hr]
  split
  · exact ⟨hr, hp⟩
  · simp [hp]

end Ledger
end ImagePreview

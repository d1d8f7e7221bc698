import ImagePreview.Text.Basic

/-!
The log: one record for each decision about an image and for each script that was written, and one
line of statistics for each document.
-/
namespace ImagePreview.Log

inductive Outcome
  | applied
  | notApplied
deriving DecidableEq

inductive Status
  | active
  | clientUnsupported
  | notApplied
deriving DecidableEq

structure Resource where
  inlined : Bool
  critical : Bool
deriving DecidableEq

structure ImageInfo where
  previewInserted : Bool
  previewSize : UInt64
deriving DecidableEq

structure Record where
  id : Text
  outcome : Outcome
  resource : Option Resource := none
  image : Option ImageInfo := none
deriving DecidableEq

structure Stats where
  id : Text
  status : Status
deriving DecidableEq

def imageId : Text := "ic".toList

def delayId : Text := "di".toList

def Record.ofImage (size : Option UInt64) : Record where
  id := imageId
  outcome := .notApplied
  resource := some ⟨false, true⟩
  image := some ⟨size.isSome, size.getD 0⟩

def Record.ofDelay (outcome : Outcome) : Record := { id := delayId, outcome }

end Log

structure Log where
  records : List Log.Record := []
  stats : List Log.Stats := []
deriving DecidableEq

namespace Log

/-- The ids with an applied record, each once, in the order of their first ones. -/
def appliedIds (log : Log) : List Text :=
  log.records.foldl
    (fun ids r => if r.outcome = .applied ∧ r.id ∉ ids then ids ++ [r.id] else ids) []

def status? (log : Log) (id : Text) : Option Status :=
  (log.stats.reverse.find? fun s => s.id == id).map Stats.status

end ImagePreview.Log

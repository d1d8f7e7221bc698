import ImagePreview.Log.Basic
import ImagePreview.Preview.Source

/-!
What is done outside of documents, step by step or altogether: the lookups made at the source of
previews, and what is logged.
-/
namespace ImagePreview

structure Trace where
  lookups : List Lookup := []
  log : Log := {}
deriving DecidableEq

namespace Trace

def append (a b : Trace) : Trace where
  lookups := a.lookups ++ b.lookups
  log := ⟨a.log.records ++ b.log.records, a.log.stats ++ b.log.stats⟩

instance : Append Trace := ⟨append⟩

def ofRecord (record : Log.Record) : Trace := { log := { records := [record] } }

def ofStats (stats : Log.Stats) : Trace := { log := { stats := [stats] } }

variable (a b c : Trace)

@[simp] theorem lookups_append : (a ++ b).lookups = a.lookups ++ b.lookups := rfl

@[simp] theorem records_append : (a ++ b).log.records = a.log.records ++ b.log.records := rfl

@[simp] theorem stats_append : (a ++ b).log.stats = a.log.stats ++ b.log.stats := rfl

@[ext] theorem ext_lists {a b : Trace} (hl : a.lookups = b.lookups)
    (hr : a.log.records = b.log.records) (hs : a.log.stats = b.log.stats) : a = b := by
  obtain ⟨_, _, _⟩ := a
  obtain ⟨_, _, _⟩ := b
  simp_all

@[simp] theorem empty_append : ({} : Trace) ++ a = a := by ext1 <;> simp

@[simp] theorem append_empty : a ++ ({} : Trace) = a := by ext1 <;> simp

theorem append_assoc : a ++ b ++ c = a ++ (b ++ c) := by ext1 <;> simp

end Trace
end ImagePreview

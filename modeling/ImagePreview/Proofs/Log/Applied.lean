import ImagePreview.Log.Basic
import Mathlib.Data.List.Induction

/-!
The ids that a log lists as applied. After each record that is logged, these are exactly the ids
applied so far, in the order in which each first was; so a record never changes what is listed, but
may add its own id.
-/
namespace ImagePreview.Log

def Record.applies (r : Record) (id : Text) : Prop := r.id = id ∧ r.outcome = .applied

instance (r : Record) (id : Text) : Decidable (r.applies id) :=
  inferInstanceAs (Decidable (r.id = id ∧ r.outcome = .applied))

def firstApplied (records : List Record) (id : Text) : Nat :=
  records.findIdx fun r => r.applies id

theorem appliedIds_concat (records : List Record) (r : Record) (stats : List Stats) :
    appliedIds ⟨records ++ [r], stats⟩ =
      if r.outcome = .applied ∧ r.id ∉ appliedIds ⟨records, stats⟩ then
        appliedIds ⟨records, stats⟩ ++ [r.id]
      else appliedIds ⟨records, stats⟩ := by
  rw [appliedIds, List.foldl_append]
  rfl

structure Collected (records : List Record) (ids : List Text) : Prop where
  mem_iff : ∀ id, id ∈ ids ↔ ∃ r ∈ records, r.applies id
  sorted : ids.Pairwise fun a b => firstApplied records a < firstApplied records b

section First

variable {records : List Record} {id : Text}

theorem firstApplied_lt (h : ∃ r ∈ records, r.applies id) :
    firstApplied records id < records.length := by
  obtain ⟨r, hr, hid⟩ := h
  exact List.findIdx_lt_length_of_exists ⟨r, hr, decide_eq_true hid⟩

theorem firstApplied_append (h : ∃ r ∈ records, r.applies id) (more : List Record) :
    firstApplied (records ++ more) id = firstApplied records id := by
  have hlt := firstApplied_lt h
  rw [firstApplied] at hlt ⊢
  rw [List.findIdx_append, if_pos hlt, firstApplied]

/-- An id that no record applies would be applied behind them all. -/
theorem length_le_firstApplied (h : ¬∃ r ∈ records, r.applies id) (more : List Record) :
    records.length ≤ firstApplied (records ++ more) id := by
  have hnone : ∀ r ∈ records, decide (r.applies id) = false := fun r hr =>
    decide_eq_false fun hid => h ⟨r, hr, hid⟩
  rw [firstApplied, List.findIdx_append, List.findIdx_eq_length_of_false hnone,
    if_neg (Nat.lt_irrefl _)]
  exact Nat.le_add_left _ _

end First

namespace Collected

variable {records : List Record} {ids : List Text}

theorem nil : Collected [] [] := ⟨by simp, .nil⟩

/-- No id is collected twice: it would have come before itself. -/
theorem nodup (h : Collected records ids) : ids.Nodup := by
  apply h.sorted.imp
  rintro a b hlt rfl
  exact Nat.lt_irrefl _ hlt

theorem sorted_append (h : Collected records ids) (more : List Record) :
    ids.Pairwise fun a b =>
      firstApplied (records ++ more) a < firstApplied (records ++ more) b := by
  refine h.sorted.imp_of_mem fun {a b} ha hb hlt => ?_
  rw [firstApplied_append ((h.mem_iff a).mp ha), firstApplied_append ((h.mem_iff b).mp hb)]
  exact hlt

theorem push (h : Collected records ids) (r : Record) :
    Collected (records ++ [r])
      (if r.outcome = .applied ∧ r.id ∉ ids then ids ++ [r.id] else ids) := by
  have happlies (id : Text) : (∃ x ∈ records ++ [r], x.applies id) ↔ id ∈ ids ∨ r.applies id := by
    simp only [List.mem_append, List.mem_singleton, or_and_right, exists_or, exists_eq_left,
      h.mem_iff]
  split
  · rename_i hnew
    obtain ⟨happlied, hnot⟩ := hnew
    refine ⟨fun id => ?_, ?_⟩
    · rw [happlies, List.mem_append, List.mem_singleton]
      exact or_congr_right ⟨fun he => ⟨he.symm, happlied⟩, fun hid => hid.1.symm⟩
    · refine List.pairwise_append.mpr ⟨h.sorted_append [r], List.pairwise_singleton _ _, ?_⟩
      intro a ha b hb
      rw [List.mem_singleton.mp hb]
      have hbefore := (h.mem_iff a).mp ha
      have hbehind : ¬∃ x ∈ records, x.applies r.id := fun hx => hnot ((h.mem_iff r.id).mpr hx)
      calc firstApplied (records ++ [r]) a
        _ = firstApplied records a := firstApplied_append hbefore [r]
        _ < records.length := firstApplied_lt hbefore
        _ ≤ firstApplied (records ++ [r]) r.id := length_le_firstApplied hbehind [r]
  · rename_i hold
    refine ⟨fun id => ?_, h.sorted_append [r]⟩
    rw [happlies, or_iff_left_of_imp]
    rintro ⟨rfl, happlied⟩
    exact Decidable.not_not.mp fun hnot => hold ⟨happlied, hnot⟩

end Collected

/-- The induction is on the records as they are logged, the last one last. -/
theorem collected_appliedIds (records : List Record) (stats : List Stats) :
    Collected records (appliedIds ⟨records, stats⟩) := by
  induction records using List.reverseRecOn with
  | nil => exact .nil
  | append_singleton records r ih =>
    rw [appliedIds_concat]
    exact ih.push r

theorem appliedIds_prefix (records more : List Record) (stats : List Stats) :
    appliedIds ⟨records, stats⟩ <+: appliedIds ⟨records ++ more, stats⟩ := by
  induction more using List.reverseRecOn with
  | nil => simp
  | append_singleton more r ih =>
    rw [← List.append_assoc, appliedIds_concat]
    split
    · exact ih.trans (List.prefix_append _ [r.id])
    · exact ih

/-- The ids listed as applied are those of the applied records, each once, by their first such
record; and whatever is logged later, they stay listed as they are, with new ones behind them. -/
theorem applied_ids_exact_and_stable (log : Log) :
    log.appliedIds.Nodup ∧
      (∀ id, id ∈ log.appliedIds ↔ ∃ r ∈ log.records, r.id = id ∧ r.outcome = .applied) ∧
      (log.appliedIds.Pairwise fun a b =>
        firstApplied log.records a < firstApplied log.records b) ∧
      ∀ (records : List Record) (stats : List Stats),
        log.appliedIds <+: appliedIds ⟨log.records ++ records, log.stats ++ stats⟩ := by
  have hcollected := collected_appliedIds log.records log.stats
  refine ⟨hcollected.nodup, hcollected.mem_iff, hcollected.sorted, fun records stats => ?_⟩
  exact appliedIds_prefix log.records records (log.stats ++ stats)

end ImagePreview.Log

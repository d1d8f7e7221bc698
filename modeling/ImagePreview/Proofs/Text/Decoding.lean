import ImagePreview.Proofs.Text.Encoding
import ImagePreview.Text.Blank
import Mathlib.Data.List.TakeWhile

/-!
What decoding does not change. No reference holds a double quote, so that a value decodes alike
whether its double quotes stand in it or are written as references. Blanks at either end belong to
no reference and stay where they are.
-/
namespace ImagePreview.Text

theorem ofDigits?_of_not_digit {base : Nat} {c : Char} {t : Text} (hc : digit? base c = none)
    (hmem : c ∈ t) : ofDigits? base t = none := by
  have hread (n : Nat) :
      t.foldlM (fun n d => (digit? base d).map (base * n + ·)) n = none := by
    induction t generalizing n with
    | nil => exact absurd hmem List.not_mem_nil
    | cons d t ih =>
      rw [List.foldlM_cons]
      rcases List.mem_cons.mp hmem with rfl | hmem
      · simp [hc]
      · cases digit? base d with
        | none => rfl
        | some m => exact ih hmem _
  rw [ofDigits?, hread, ite_self]

namespace Reference

theorem mem_units_of_mem {s : String} (h : '"' ∈ s.toList) : 34 ∈ s.toByteArray.data.toList := by
  rw [← String.ofList_toList (s := s), String.toByteArray_ofList, List.utf8Encode,
    List.data_toByteArray, List.mem_flatMap]
  exact ⟨'"', h, by decide⟩

theorem quote_not_mem_namesFrom {c : Char} {entry : String × Nat} (h : entry ∈ namesFrom c) :
    '"' ∉ entry.1.toList := by
  -- the tables are compared in bytes, which takes a fraction of the time
  have hunits : ((namesFrom c).all fun entry => !entry.1.toByteArray.data.toList.contains 34) =
      true := by
    unfold namesFrom
    split <;> decide +kernel
  have hentry := List.all_eq_true.mp hunits entry h
  intro hquote
  have hmem := List.contains_iff_mem.mpr (mem_units_of_mem hquote)
  rw [hmem] at hentry
  contradiction

theorem codePoint?_of_quote {name : Text} (h : '"' ∈ name) : codePoint? name = none := by
  cases name with
  | nil => rfl
  | cons c name =>
    rw [codePoint?, Option.map_eq_none_iff, List.find?_eq_none]
    intro entry hentry he
    have hquote := quote_not_mem_namesFrom hentry
    rw [beq_iff_eq.mp he] at hquote
    exact hquote h

theorem character?_of_quote {body : Text} (h : '"' ∈ body) : character? body = none := by
  have hten : digit? 10 '"' = none := by decide
  have hsixteen : digit? 16 '"' = none := by decide
  unfold character?
  split
  · rw [ofDigits?_of_not_digit hsixteen (by simpa using h)]
    rfl
  · rw [ofDigits?_of_not_digit hsixteen (by simpa using h)]
    rfl
  · rw [ofDigits?_of_not_digit hten (by simpa using h)]
    rfl
  · rw [codePoint?_of_quote h]
    rfl

/-- Held back in vain: there is a double quote in it. -/
theorem decodeHolding_of_quote {held : Text} (h : '"' ∈ held) (t : Text) :
    decodeHolding (some held) t = '&' :: held ++ decodeHolding none t := by
  induction t generalizing held with
  | nil => simp [decodeHolding]
  | cons c t ih =>
    by_cases hend : c = ';'
    · simp [decodeHolding, hend, character?_of_quote h]
    · by_cases hstart : c = '&'
      · simp [decodeHolding, hstart]
      · have hlater := ih (List.mem_append_left [c] h)
        simp [decodeHolding, hend, hstart, hlater]

theorem decodeHolding_quot (t : Text) :
    decodeHolding (some []) ("quot;".toList ++ t) = '"' :: decodeHolding none t :=
  (written_encodeChar '"').decode t

/-- Double quotes may be written as references, also inside what looks like the beginning of
another reference. -/
theorem decodeHolding_replace (held : Option Text) (t : Text) :
    decodeHolding held (replace '"' "&quot;".toList t) = decodeHolding held t := by
  induction t generalizing held with
  | nil => rfl
  | cons c t ih =>
    by_cases hc : c = '"'
    · have hrep : replace '"' "&quot;".toList (c :: t) =
          '&' :: ("quot;".toList ++ replace '"' "&quot;".toList t) := by
        rw [replace, List.flatMap_cons, if_pos hc]
        rfl
      rw [hrep]
      subst hc
      cases held with
      | none =>
        rw [decodeHolding, if_pos rfl, decodeHolding_quot, ih, decodeHolding, if_neg (by decide)]
      | some held =>
        have hquote : '"' ∈ held ++ ['"'] := List.mem_append_right held List.mem_cons_self
        rw [decodeHolding, if_neg (by decide), if_pos rfl, decodeHolding_quot, ih, decodeHolding,
          if_neg (by decide), if_neg (by decide), decodeHolding_of_quote hquote]
        simp
    · have hrep : replace '"' "&quot;".toList (c :: t) =
          c :: replace '"' "&quot;".toList t := by
        rw [replace, List.flatMap_cons, if_neg hc]
        rfl
      rw [hrep]
      cases held with
      | none => simp only [decodeHolding, ih]
      | some held => simp only [decodeHolding, ih]

theorem decode_replace (t : Text) : decode (replace '"' "&quot;".toList t) = decode t :=
  decodeHolding_replace none t

theorem decodeHolding_some_ne_nil (held t : Text) : decodeHolding (some held) t ≠ [] := by
  induction t generalizing held with
  | nil => simp [decodeHolding]
  | cons c t ih =>
    rw [decodeHolding]
    split
    · split <;> simp
    · split
      · simp
      · exact ih _

theorem decode_eq_nil_iff {t : Text} : decode t = [] ↔ t = [] := by
  refine ⟨fun h => ?_, fun h => by rw [h]; rfl⟩
  cases t with
  | nil => rfl
  | cons c t =>
    rw [decode, decodeHolding] at h
    split at h
    · exact absurd h (decodeHolding_some_ne_nil [] t)
    · contradiction

section Blanks

variable {blanks : Text} (hblank : ∀ c ∈ blanks, isBlank c = true)
include hblank

theorem ne_of_isBlank {c d : Char} (hd : isBlank d = false) (hc : c ∈ blanks) : c ≠ d := by
  intro he
  rw [he] at hc
  rw [hblank d hc] at hd
  contradiction

theorem decodeHolding_blanks (held : Option Text) :
    decodeHolding held blanks = (held.map ('&' :: ·)).getD [] ++ blanks := by
  induction blanks generalizing held with
  | nil => cases held <;> simp [decodeHolding]
  | cons c blanks ih =>
    have hamp := ne_of_isBlank hblank (d := '&') (by decide) List.mem_cons_self
    have hend := ne_of_isBlank hblank (d := ';') (by decide) List.mem_cons_self
    have hlater := ih fun d hd => hblank d (List.mem_cons_of_mem c hd)
    cases held <;> simp [decodeHolding, hamp, hend, hlater]

theorem decodeHolding_append_blanks (held : Option Text) (t : Text) :
    decodeHolding held (t ++ blanks) = decodeHolding held t ++ blanks := by
  induction t generalizing held with
  | nil =>
    rw [List.nil_append, decodeHolding_blanks hblank]
    cases held <;> simp [decodeHolding]
  | cons c t ih =>
    cases held with
    | none =>
      simp only [List.cons_append, decodeHolding]
      split
      · exact ih _
      · rw [ih, List.cons_append]
    | some held =>
      simp only [List.cons_append, decodeHolding]
      split
      · cases character? held <;> simp [ih]
      · split
        · simp [ih]
        · exact ih _

theorem decode_blanks_append (t : Text) : decode (blanks ++ t) = blanks ++ decode t := by
  induction blanks with
  | nil => rfl
  | cons c blanks ih =>
    have hamp := ne_of_isBlank hblank (d := '&') (by decide) List.mem_cons_self
    have hlater := ih fun d hd => hblank d (List.mem_cons_of_mem c hd)
    rw [decode] at hlater ⊢
    rw [List.cons_append, decodeHolding, if_neg hamp, hlater, List.cons_append, decode]

end Blanks

end Reference

theorem exists_trim (t : Text) :
    ∃ front behind : Text, (∀ c ∈ front, isBlank c = true) ∧ (∀ c ∈ behind, isBlank c = true) ∧
      t = front ++ (trim t ++ behind) := by
  let left := trimLeft t
  have hback : left.reverse = left.reverse.takeWhile isBlank ++ trimLeft left.reverse :=
    List.takeWhile_append_dropWhile.symm
  refine ⟨t.takeWhile isBlank, (left.reverse.takeWhile isBlank).reverse,
    fun c hc => List.mem_takeWhile_imp hc,
    fun c hc => List.mem_takeWhile_imp (List.mem_reverse.mp hc), ?_⟩
  rw [trim, trimRight, ← List.reverse_append, ← hback, List.reverse_reverse]
  exact List.takeWhile_append_dropWhile.symm

theorem trim_append_blanks {front behind : Text} (hfront : ∀ c ∈ front, isBlank c = true)
    (hbehind : ∀ c ∈ behind, isBlank c = true) (t : Text) :
    trim (front ++ (t ++ behind)) = trim t := by
  have hback : ∀ c ∈ behind.reverse, isBlank c = true := fun c hc =>
    hbehind c (List.mem_reverse.mp hc)
  rw [trim, trim, trimLeft_append hfront]
  by_cases hblank : t.dropWhile isBlank = []
  · have hnone : trimLeft behind = [] := List.dropWhile_eq_nil_iff.mpr hbehind
    rw [trimLeft, trimLeft, List.dropWhile_append, hblank]
    exact congrArg trimRight hnone
  · have hkept : trimLeft (t ++ behind) = trimLeft t ++ behind := by
      rw [trimLeft, List.dropWhile_append, if_neg (by simpa using hblank), trimLeft]
    rw [hkept, trimRight, trimRight, List.reverse_append, trimLeft_append hback]

theorem exists_decode_trim (t : Text) :
    ∃ front behind : Text, (∀ c ∈ front, isBlank c = true) ∧ (∀ c ∈ behind, isBlank c = true) ∧
      t = front ++ (trim t ++ behind) ∧
      Reference.decode t = front ++ (Reference.decode (trim t) ++ behind) := by
  obtain ⟨front, behind, hfront, hbehind, ht⟩ := exists_trim t
  refine ⟨front, behind, hfront, hbehind, ht, ?_⟩
  calc Reference.decode t
    _ = Reference.decode (front ++ (trim t ++ behind)) := by rw [← ht]
    _ = front ++ Reference.decode (trim t ++ behind) :=
      Reference.decode_blanks_append hfront (trim t ++ behind)
    _ = front ++ (Reference.decode (trim t) ++ behind) := by
      rw [Reference.decode, Reference.decodeHolding_append_blanks hbehind, ← Reference.decode]

theorem trim_decode_trim (t : Text) :
    trim (Reference.decode (trim t)) = trim (Reference.decode t) := by
  obtain ⟨front, behind, hfront, hbehind, -, hdecode⟩ := exists_decode_trim t
  rw [hdecode, trim_append_blanks hfront hbehind]

/-- What is trimmed away can still be told from the decoded text. -/
theorem decode_trim_eq_iff (t : Text) :
    Reference.decode (trim t) = Reference.decode t ↔ trim t = t := by
  refine ⟨fun h => ?_, fun h => by rw [h]⟩
  obtain ⟨front, behind, -, -, ht, hdecode⟩ := exists_decode_trim t
  have hlength := congrArg List.length (h.trans hdecode)
  simp only [List.length_append] at hlength
  have hnone : front = [] ∧ behind = [] :=
    ⟨List.eq_nil_of_length_eq_zero (by omega), List.eq_nil_of_length_eq_zero (by omega)⟩
  rw [hnone.1, hnone.2, List.nil_append, List.append_nil] at ht
  exact ht.symm

end ImagePreview.Text

import ImagePreview.Text.Reference

/-!
Encoded text. Whatever references it holds itself, it decodes to what was encoded; and nothing in it
could end the value that it stands in, or begin or end a tag.
-/
namespace ImagePreview.Text.Reference

def isMark (c : Char) : Bool := c == '"' || c == '<' || c == '>'

inductive Written (c : Char) : Text → Prop
  | self : c ≠ '&' → isMark c = false → Written c [c]
  | reference (body : Text) : character? body = some c →
      (body.all fun d => d != '&' && d != ';' && !isMark d) = true →
      Written c ('&' :: body ++ [';'])

theorem written_encodeChar (c : Char) : Written c (encodeChar c) := by
  unfold encodeChar
  split
  case h_1 => exact .reference "amp".toList (by decide +kernel) (by decide)
  case h_2 => exact .reference "lt".toList (by decide +kernel) (by decide)
  case h_3 => exact .reference "gt".toList (by decide +kernel) (by decide)
  case h_4 => exact .reference "quot".toList (by decide +kernel) (by decide)
  case h_5 hamp hlt hgt hquot => exact .self hamp (by simpa [isMark] using ⟨⟨hquot, hlt⟩, hgt⟩)

/-- What is held back grows up to the end of the reference. -/
theorem decodeHolding_body {body : Text} (h : ∀ d ∈ body, d ≠ '&' ∧ d ≠ ';') (held t : Text) :
    decodeHolding (some held) (body ++ t) = decodeHolding (some (held ++ body)) t := by
  induction body generalizing held with
  | nil => simp
  | cons d body ih =>
    obtain ⟨⟨hamp, hend⟩, hbody⟩ := List.forall_mem_cons.mp h
    rw [List.cons_append, decodeHolding, if_neg hend, if_neg hamp, ih hbody, List.append_assoc,
      List.singleton_append]

namespace Written

variable {c : Char} {w : Text}

theorem decode (h : Written c w) (t : Text) :
    decodeHolding none (w ++ t) = c :: decodeHolding none t := by
  cases h with
  | self hamp => rw [List.singleton_append, decodeHolding, if_neg hamp]
  | reference body hbody hall =>
    have hplain : ∀ d ∈ body, d ≠ '&' ∧ d ≠ ';' := by simp_all
    rw [List.cons_append, List.cons_append, List.append_assoc, List.singleton_append,
      decodeHolding, if_pos rfl, decodeHolding_body hplain, List.nil_append, decodeHolding,
      if_pos rfl, hbody]

theorem isMark_of_mem (h : Written c w) {d : Char} (hd : d ∈ w) : isMark d = false := by
  cases h with
  | self _ hmark => rwa [List.mem_singleton.mp hd]
  | reference _ _ hall =>
    simp only [List.cons_append, List.mem_cons, List.mem_append, List.not_mem_nil, or_false] at hd
    rcases hd with rfl | hd | rfl
    · rfl
    · have hplain := List.all_eq_true.mp hall d hd
      simp_all
    · rfl

end Written

section Encoders

variable {write : Char → Text} (hwrite : ∀ c, Written c (write c))
include hwrite

/-- What is written of a text is decoded first, and the text behind it as if it stood alone. -/
theorem decodeHolding_flatMap (t behind : Text) :
    decodeHolding none (t.flatMap write ++ behind) = t ++ decodeHolding none behind := by
  induction t with
  | nil => rfl
  | cons c t ih =>
    rw [List.flatMap_cons, List.append_assoc, (hwrite c).decode, ih, List.cons_append]

theorem isMark_of_mem_flatMap {t : Text} {d : Char} (hd : d ∈ t.flatMap write) :
    isMark d = false := by
  obtain ⟨c, -, hc⟩ := List.mem_flatMap.mp hd
  exact (hwrite c).isMark_of_mem hc

end Encoders

theorem decodeHolding_plain {t : Text} (h : '&' ∉ t) (behind : Text) :
    decodeHolding none (t ++ behind) = t ++ decodeHolding none behind := by
  induction t with
  | nil => rfl
  | cons c t ih =>
    rw [List.mem_cons, not_or] at h
    rw [List.cons_append, decodeHolding, if_neg (Ne.symm h.1), ih h.2, List.cons_append]

theorem written_encodeQuoted (c : Char) :
    Written c (if c = '\'' then "&#x27;".toList else encodeChar c) := by
  split
  · rename_i hc
    rw [hc]
    exact .reference "#x27".toList (by decide +kernel) (by decide)
  · exact written_encodeChar c

/-- `value` may stand between double quotes, where it means `t`. -/
structure Denotes (value t : Text) : Prop where
  quote : '"' ∉ value
  less : '<' ∉ value
  greater : '>' ∉ value
  decode : decode value = t

theorem denotes_flatMap {write : Char → Text} (hwrite : ∀ c, Written c (write c)) (t : Text) :
    Denotes (t.flatMap write) t := by
  have hmark {d : Char} (hd : isMark d = true) : d ∉ t.flatMap write := by
    intro hmem
    rw [isMark_of_mem_flatMap hwrite hmem] at hd
    contradiction
  have hdecode := decodeHolding_flatMap hwrite t []
  rw [List.append_nil, decodeHolding, List.append_nil] at hdecode
  exact ⟨hmark rfl, hmark rfl, hmark rfl, hdecode⟩

theorem denotes_encode (t : Text) : Denotes (encode t) t := denotes_flatMap written_encodeChar t

theorem denotes_encodeQuoted (t : Text) : Denotes (encodeQuoted t) t :=
  denotes_flatMap written_encodeQuoted t

end ImagePreview.Text.Reference

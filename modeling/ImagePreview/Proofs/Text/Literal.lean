import ImagePreview.Text.JsLiteral

/-!
Quoted literals of a script. What is escaped reads back, whatever follows the quote that closes the
literal; and until then it holds nothing that could end the literal, its line or the script.
-/
namespace ImagePreview.Text.JsLiteral

theorem length_read?_lt {quote : Char} {t value rest : Text}
    (h : read? quote t = some (value, rest)) : rest.length < t.length := by
  have hmore {c : Char} {t value rest : Text} {n : Nat} (hn : t.length ≤ n)
      (ih : ∀ {value rest}, read? quote t = some (value, rest) → rest.length < t.length)
      (h : (read? quote t).map (fun found => (c :: found.1, found.2)) = some (value, rest)) :
      rest.length < n := by
    obtain ⟨found, hfound, he⟩ := Option.map_eq_some_iff.mp h
    rw [← (Prod.mk.inj he).2]
    exact Nat.lt_of_lt_of_le (ih hfound) hn
  fun_induction read? quote t generalizing value rest with
  | case1 => contradiction
  | case2 i j k l t ih =>
    obtain ⟨n, -, hn⟩ := Option.bind_eq_some_iff.mp h
    exact hmore (by simp only [List.length_cons]; omega) ih hn
  | case3 c t _ ih =>
    obtain ⟨d, -, hd⟩ := Option.bind_eq_some_iff.mp h
    exact hmore (by simp only [List.length_cons]; omega) ih hd
  | case4 c t =>
    rw [← (Prod.mk.inj (Option.some.inj h)).2]
    exact Nat.lt_succ_self _
  | case5 => contradiction
  | case6 c t _ _ _ _ ih => exact hmore (Nat.le_succ _) ih h

/-- The characters of a literal that stand for themselves: no backslash, and none behind one. -/
def bare : Text → Text
  | [] => []
  | '\\' :: _ :: t => bare t
  | c :: t => c :: bare t

def isInert (c : Char) : Bool :=
  c != '\\' && c != '\'' && c != '"' && c != '<' && !isLineEnd c

/-- The ways to write a character: as it is, as a letter behind a backslash, or by its number. -/
inductive Written (c : Char) : Text → Prop
  | self : isInert c = true → Written c [c]
  | letter {d : Char} : unescape? d = some c → d ≠ '<' → isLineEnd d = false → Written c ['\\', d]
  | number {i j k l : Char} : ofDigits? 16 [i, j, k, l] = some c.toNat →
      [i, j, k, l].all isInert = true → Written c ['\\', 'u', i, j, k, l]

theorem written_escapeChar (c : Char) : Written c (escapeChar c) := by
  unfold escapeChar
  split
  case h_6 | h_7 | h_8 => exact .number (by decide) (by decide)
  case h_9 =>
    refine .self ?_
    simp_all [isInert, isLineEnd]
  all_goals exact .letter rfl (by decide) (by decide)

theorem ne_of_isInert {c d : Char} (h : isInert c = true) (hd : isInert d = false) : c ≠ d := by
  intro he
  rw [he, hd] at h
  contradiction

theorem escape_append (a b : Text) : escape (a ++ b) = escape a ++ escape b := List.flatMap_append

theorem escapeChar_of_isInert {c : Char} (h : isInert c = true) : escapeChar c = [c] := by
  unfold escapeChar
  split
  case h_9 => rfl
  all_goals contradiction

theorem escape_of_isInert {t : Text} (h : ∀ c ∈ t, isInert c = true) : escape t = t := by
  induction t with
  | nil => rfl
  | cons c t ih =>
    obtain ⟨hc, ht⟩ := List.forall_mem_cons.mp h
    rw [escape] at ih ⊢
    rw [List.flatMap_cons, escapeChar_of_isInert hc, ih ht, List.singleton_append]

theorem bare_append_of_isInert {w : Text} (h : ∀ c ∈ w, isInert c = true) (t : Text) :
    bare (w ++ t) = w ++ bare t := by
  induction w with
  | nil => rfl
  | cons c w ih =>
    obtain ⟨hc, hw⟩ := List.forall_mem_cons.mp h
    rw [List.cons_append, bare, ih hw, List.cons_append]
    exact fun _ _ he => absurd he (ne_of_isInert hc (by decide))

namespace Written

variable {c quote : Char} {w : Text}

theorem read (h : Written c w) (hquote : quote = '\'' ∨ quote = '"') (t : Text) :
    read? quote (w ++ t) = (read? quote t).map fun found => (c :: found.1, found.2) := by
  cases h with
  | self hc =>
    have hslash : c ≠ '\\' := ne_of_isInert hc (by decide)
    have hclose : c ≠ quote := by
      rcases hquote with rfl | rfl <;> exact ne_of_isInert hc (by decide)
    have hline : isLineEnd c = false := by simp_all [isInert]
    rw [List.singleton_append, read?, if_neg hclose, if_neg (by simp [hslash, hline])]
    · exact fun _ _ _ _ _ he => absurd he hslash
    · exact fun _ _ he => absurd he hslash
  | @letter d hd =>
    have hu : d ≠ 'u' := by
      rintro rfl
      contradiction
    rw [List.cons_append, List.singleton_append, read?, hd]
    · rfl
    · exact fun _ _ _ _ _ he => absurd he hu
  | number hn =>
    simp only [List.cons_append, List.nil_append, read?, hn, Option.bind_some, Char.ofNat_toNat]

theorem mem (h : Written c w) {d : Char} (hd : d ∈ w) : d ≠ '<' ∧ isLineEnd d = false := by
  have hinert {d : Char} (hd : isInert d = true) : d ≠ '<' ∧ isLineEnd d = false := by
    simp_all [isInert]
  cases h with
  | self hc =>
    rw [List.mem_singleton.mp hd]
    exact hinert hc
  | letter _ hopen hline =>
    simp only [List.mem_cons, List.not_mem_nil, or_false] at hd
    rcases hd with rfl | rfl
    · decide
    · exact ⟨hopen, hline⟩
  | number _ hdigits =>
    rw [List.mem_cons, List.mem_cons] at hd
    rcases hd with rfl | rfl | hd
    · decide
    · decide
    · exact hinert (List.all_eq_true.mp hdigits d hd)

/-- What stands for itself in a written character is harmless. -/
theorem bare_append (h : Written c w) (t : Text) :
    ∃ inert, bare (w ++ t) = inert ++ bare t ∧ ∀ d ∈ inert, isInert d = true := by
  cases h with
  | self hc => exact ⟨[c], bare_append_of_isInert (by simpa using hc) t, by simpa using hc⟩
  | letter => exact ⟨[], rfl, by simp⟩
  | @number i j k l _ hdigits =>
    have hinert := List.all_eq_true.mp hdigits
    exact ⟨[i, j, k, l], bare_append_of_isInert hinert t, hinert⟩

end Written

/-- What is escaped reads back up to the quote that closes the literal. -/
theorem read?_escape {quote : Char} (hquote : quote = '\'' ∨ quote = '"') (t rest : Text) :
    read? quote (escape t ++ quote :: rest) = some (t, rest) := by
  induction t with
  | nil => rcases hquote with rfl | rfl <;> rfl
  | cons c t ih =>
    rw [escape] at ih ⊢
    rw [List.flatMap_cons, List.append_assoc, (written_escapeChar c).read hquote, ih]
    rfl

theorem mem_escape {t : Text} {d : Char} (hd : d ∈ escape t) : d ≠ '<' ∧ isLineEnd d = false := by
  obtain ⟨c, -, hc⟩ := List.mem_flatMap.mp hd
  exact (written_escapeChar c).mem hc

theorem isInert_of_mem_bare {t : Text} {d : Char} (hd : d ∈ bare (escape t)) :
    isInert d = true := by
  induction t with
  | nil => contradiction
  | cons c t ih =>
    obtain ⟨inert, hbare, hinert⟩ := (written_escapeChar c).bare_append (escape t)
    have hsplit : escape (c :: t) = escapeChar c ++ escape t := List.flatMap_cons
    rw [hsplit, hbare] at hd
    rcases List.mem_append.mp hd with hd | hd
    · exact hinert d hd
    · exact ih hd

/-- A literal as it stands between quotes of either kind: no quote in it is its own character, and
no line ends in it. -/
def IsWhole (source : Text) : Prop :=
  '\'' ∉ bare source ∧ '"' ∉ bare source ∧ ∀ c ∈ source, isLineEnd c = false

theorem isWhole_escape (t : Text) : IsWhole (escape t) := by
  refine ⟨fun h => ?_, fun h => ?_, fun c hc => (mem_escape hc).2⟩
  · exact absurd (isInert_of_mem_bare h) (by decide)
  · exact absurd (isInert_of_mem_bare h) (by decide)

end ImagePreview.Text.JsLiteral

import ImagePreview.Markup.Item
import Mathlib.Data.List.TakeWhile

/-!
How far markup reaches. What is read as one piece of markup does not depend on the text behind it,
as soon as that piece is closed; only an end tag and an instruction may also run to the end of the
text.
-/
namespace ImagePreview.Markup

section Scans

variable {t body : Text} (more : Text)

theorem length_before? {mark : Text} (h : before? mark t = some body) :
    body.length + mark.length ≤ t.length := by
  induction t generalizing body with
  | nil =>
    rw [before?] at h
    split at h
    · rename_i hm
      simp [← Option.some.inj h, List.isEmpty_iff.mp hm]
    · contradiction
  | cons c t ih =>
    rw [before?] at h
    split at h
    · rename_i hm
      have hle := (List.isPrefixOf_iff_prefix.mp hm).length_le
      simpa [← Option.some.inj h] using hle
    · obtain ⟨body, hbody, rfl⟩ := Option.map_eq_some_iff.mp h
      have hle := ih hbody
      simp only [List.length_cons]
      omega

theorem before?_append {mark : Text} (h : before? mark t = some body) :
    before? mark (t ++ more) = some body := by
  induction t generalizing body with
  | nil =>
    rw [before?] at h
    split at h
    · rename_i hm
      rw [← Option.some.inj h, List.isEmpty_iff.mp hm]
      cases more <;> rfl
    · contradiction
  | cons c t ih =>
    rw [before?] at h
    split at h
    · rename_i hm
      have hprefix := (List.isPrefixOf_iff_prefix.mp hm).trans (List.prefix_append (c :: t) more)
      rw [List.cons_append] at hprefix ⊢
      rw [before?, if_pos (List.isPrefixOf_iff_prefix.mpr hprefix), ← Option.some.inj h]
    · rename_i hm
      obtain ⟨body, hbody, rfl⟩ := Option.map_eq_some_iff.mp h
      -- the mark ends within `t`, so it does not begin here either way
      have hlong := length_before? hbody
      have hno : ¬ mark.isPrefixOf (c :: (t ++ more)) = true := by
        intro hlater
        refine hm (List.isPrefixOf_iff_prefix.mpr ?_)
        refine List.prefix_of_prefix_length_le (List.isPrefixOf_iff_prefix.mp hlater)
          (List.prefix_append (c :: t) more) ?_
        simp only [List.length_cons]
        omega
      rw [List.cons_append, before?, if_neg hno, ih hbody]
      rfl

theorem length_doctypeBody? {depth : Nat} (h : doctypeBody? depth t = some body) :
    body.length < t.length := by
  induction t generalizing depth body with
  | nil => simp [doctypeBody?] at h
  | cons c t ih =>
    have hlonger {depth : Nat} (h : (doctypeBody? depth t).map (c :: ·) = some body) :
        body.length < (c :: t).length := by
      obtain ⟨rest, hrest, rfl⟩ := Option.map_eq_some_iff.mp h
      simpa using ih hrest
    rw [doctypeBody?.eq_def] at h
    dsimp only at h
    split at h
    · exact hlonger h
    · split at h
      · cases depth with
        | zero => simp [← Option.some.inj h]
        | succ depth => exact hlonger h
      · exact hlonger h

theorem doctypeBody?_append {depth : Nat} (h : doctypeBody? depth t = some body) :
    doctypeBody? depth (t ++ more) = some body := by
  induction t generalizing depth body with
  | nil => simp [doctypeBody?] at h
  | cons c t ih =>
    have hlater {depth : Nat} (h : (doctypeBody? depth t).map (c :: ·) = some body) :
        (doctypeBody? depth (t ++ more)).map (c :: ·) = some body := by
      obtain ⟨rest, hrest, rfl⟩ := Option.map_eq_some_iff.mp h
      rw [ih hrest]
      rfl
    rw [doctypeBody?.eq_def] at h ⊢
    dsimp only [List.cons_append] at h ⊢
    split at h
    · rename_i hc
      rw [if_pos hc]
      exact hlater h
    · rename_i hc
      rw [if_neg hc]
      split at h
      · rename_i hend
        rw [if_pos hend]
        cases depth with
        | zero => exact h
        | succ depth => exact hlater h
      · rename_i hend
        rw [if_neg hend]
        exact hlater h

theorem length_tagBody? {quote : Option Char} (h : tagBody? quote t = some body) :
    body.length < t.length := by
  induction t generalizing quote body with
  | nil => cases quote <;> simp [tagBody?] at h
  | cons c t ih =>
    have hlonger {quote : Option Char} (h : (tagBody? quote t).map (c :: ·) = some body) :
        body.length < (c :: t).length := by
      obtain ⟨rest, hrest, rfl⟩ := Option.map_eq_some_iff.mp h
      simpa using ih hrest
    cases quote with
    | none =>
      rw [tagBody?] at h
      split at h
      · simp [← Option.some.inj h]
      · exact hlonger h
    | some q => exact hlonger h

theorem tagBody?_append {quote : Option Char} (h : tagBody? quote t = some body) :
    tagBody? quote (t ++ more) = some body := by
  induction t generalizing quote body with
  | nil => cases quote <;> simp [tagBody?] at h
  | cons c t ih =>
    have hlater {quote : Option Char} (h : (tagBody? quote t).map (c :: ·) = some body) :
        (tagBody? quote (t ++ more)).map (c :: ·) = some body := by
      obtain ⟨rest, hrest, rfl⟩ := Option.map_eq_some_iff.mp h
      rw [ih hrest]
      rfl
    cases quote with
    | none =>
      rw [tagBody?] at h
      rw [List.cons_append, tagBody?]
      split at h
      · rename_i hc
        rwa [if_pos hc]
      · rename_i hc
        rw [if_neg hc]
        exact hlater h
    | some q => exact hlater h

theorem bne_of_not_mem {c : Char} (hc : c ∉ t) : ∀ d ∈ t, (d != c) = true := by
  intro d hd
  have hne : d ≠ c := fun he => hc (he ▸ hd)
  simpa using hne

theorem takeWhile_of_not_mem {c : Char} (hc : c ∉ t) (rest : Text) :
    (t ++ c :: rest).takeWhile (· != c) = t := by
  rw [List.takeWhile_append_of_pos (bne_of_not_mem hc)]
  simp

theorem mem_of_length_takeWhile {c : Char} (h : (t.takeWhile (· != c)).length < t.length) :
    c ∈ t := by
  apply Classical.byContradiction
  intro hc
  rw [List.takeWhile_eq_self_iff.mpr (bne_of_not_mem hc)] at h
  exact Nat.lt_irrefl _ h

end Scans

theorem exists_ok_of_map {ε α β : Type} {f : α → β} {x : Except ε α} {b : β}
    (h : x.map f = .ok b) : ∃ a, x = .ok a ∧ f a = b := by
  cases x with
  | error e => contradiction
  | ok a => exact ⟨a, rfl, Except.ok.inj h⟩

/-- What `read` makes of a text, it makes of every longer one, and it takes no more than is
there. -/
def Closed (read : Text → Except Fault (Item × Nat)) (t : Text) (item : Item) (n : Nat) : Prop :=
  n ≤ t.length ∧ ∀ more, read (t ++ more) = .ok (item, n)

variable {t : Text} {item : Item} {n : Nat}

theorem length_of_sameWord {a b : Text} (h : Text.sameWord a b = true) : a.length = b.length := by
  simpa [Text.lower] using congrArg List.length (beq_iff_eq.mp h)

theorem take_append_of_sameWord {word : Text} {k : Nat} (hk : word.length = k)
    (h : Text.sameWord (t.take k) word = true) (more : Text) : (t ++ more).take k = t.take k := by
  have hlength := length_of_sameWord h
  rw [List.length_take, hk] at hlength
  exact List.take_append_of_le_length (by omega)

theorem closed_cdata {rest : Text} (ht : t = '[' :: rest) (h : declaration t = .ok (item, n)) :
    Closed declaration t item n := by
  simp only [ht, declaration, if_true] at h
  rw [← ht] at h
  split at h
  · rename_i body hbody
    split at h
    · rename_i hword
      obtain ⟨rfl, rfl⟩ := Prod.mk.inj (Except.ok.inj h)
      refine ⟨length_before? hbody, fun more => ?_⟩
      have hseven : "[CDATA[".toList.length = 7 := rfl
      have htake := take_append_of_sameWord hseven hword more
      have hlater := before?_append more hbody
      rw [ht, List.cons_append] at htake hlater ⊢
      simp only [declaration, if_true, hlater, htake]
      rw [← ht, if_pos hword]
    · contradiction
  · contradiction

theorem closed_comment {rest : Text} (ht : t = '-' :: rest) (h : declaration t = .ok (item, n)) :
    Closed declaration t item n := by
  have hne : ¬ '-' = '[' := by decide
  simp only [ht, declaration, if_neg hne, if_true] at h
  rw [← ht] at h
  split at h
  · rename_i body hbody
    split at h
    · rename_i hword
      obtain ⟨rfl, rfl⟩ := Prod.mk.inj (Except.ok.inj h)
      have htwo : 2 ≤ t.length := by
        have hlength := congrArg List.length hword
        rw [List.length_take] at hlength
        change min 2 t.length = 2 at hlength
        omega
      refine ⟨?_, fun more => ?_⟩
      · have hle := length_before? hbody
        rw [List.length_drop] at hle
        change body.length + 3 ≤ t.length - 2 at hle
        omega
      · have htake : (t ++ more).take 2 = t.take 2 := List.take_append_of_le_length htwo
        have hlater := before?_append more hbody
        rw [← List.drop_append_of_le_length htwo] at hlater
        rw [ht, List.cons_append] at htake hlater ⊢
        simp only [declaration, if_neg hne, if_true, hlater, htake]
        rw [← ht, if_pos hword]
    · contradiction
  · contradiction

theorem closed_doctype {c : Char} {rest : Text} (ht : t = c :: rest) (hc : c = 'D' ∨ c = 'd')
    (h : declaration t = .ok (item, n)) : Closed declaration t item n := by
  have hcdata : ¬ c = '[' := by rcases hc with rfl | rfl <;> decide
  have hcomment : ¬ c = '-' := by rcases hc with rfl | rfl <;> decide
  simp only [ht, declaration, if_neg hcdata, if_neg hcomment, if_pos hc] at h
  rw [← ht] at h
  split at h
  · rename_i body hbody
    split at h
    · contradiction
    · rename_i hword
      split at h
      · contradiction
      · rename_i hblank
        obtain ⟨rfl, rfl⟩ := Prod.mk.inj (Except.ok.inj h)
        refine ⟨length_doctypeBody? hbody, fun more => ?_⟩
        have hlater := doctypeBody?_append more hbody
        rw [ht, List.cons_append] at hlater ⊢
        simp only [declaration, if_neg hcdata, if_neg hcomment, if_pos hc, hlater]
        rw [if_neg hword, if_neg hblank]
  · contradiction

/-- A declaration ends with a bracket of its own. -/
theorem closed_declaration (h : declaration t = .ok (item, n)) : Closed declaration t item n := by
  cases t with
  | nil => contradiction
  | cons c rest =>
    by_cases hcdata : c = '['
    · exact closed_cdata (by rw [hcdata]) h
    · by_cases hcomment : c = '-'
      · exact closed_comment (by rw [hcomment]) h
      · by_cases hdoctype : c = 'D' ∨ c = 'd'
        · exact closed_doctype rfl hdoctype h
        · simp [declaration, hcdata, hcomment, hdoctype] at h

theorem closed_element (h : element t = .ok (item, n)) : Closed element t item n := by
  rw [element] at h
  split at h
  · contradiction
  · rename_i body hbody
    obtain ⟨attrs, -, hfound⟩ := exists_ok_of_map h
    obtain ⟨-, rfl⟩ := Prod.mk.inj hfound
    refine ⟨length_tagBody? hbody, fun more => ?_⟩
    rw [element, tagBody?_append more hbody]
    exact h

/-- Without a `>`, an instruction reaches to the end of the text. -/
theorem closed_instruction (hend : '>' ∈ t) (h : instruction t = .ok (item, n)) :
    Closed instruction t item n := by
  obtain ⟨front, rest, rfl, hfront⟩ := List.eq_append_cons_of_mem hend
  have hbody := takeWhile_of_not_mem hfront rest
  simp only [instruction, hbody] at h
  split at h
  · rename_i hwhole
    obtain ⟨rfl, rfl⟩ := Prod.mk.inj (Except.ok.inj h)
    refine ⟨by simp, fun more => ?_⟩
    have hlater := takeWhile_of_not_mem hfront (rest ++ more)
    rw [List.append_assoc, List.cons_append]
    simp only [instruction, hlater, if_pos hwhole]
  · contradiction

theorem mem_of_instruction (hn : n ≤ t.length) (h : instruction t = .ok (item, n)) : '>' ∈ t := by
  simp only [instruction] at h
  split at h
  · obtain ⟨rfl, rfl⟩ := Prod.mk.inj (Except.ok.inj h)
    exact mem_of_length_takeWhile hn
  · contradiction

/-- Markup is closed if it ends before the text does, or if the text holds a `>`. -/
theorem closed_markup (hend : n ≤ t.length ∨ '>' ∈ t) (h : markup t = .ok (item, n)) :
    Closed markup t item n := by
  rw [markup.eq_def] at h
  split at h
  · rename_i rest
    obtain ⟨rfl, rfl⟩ := Prod.mk.inj (Except.ok.inj h)
    have hmem : '>' ∈ rest := by
      rcases hend with hn | hmem
      · apply mem_of_length_takeWhile
        exact Nat.le_of_succ_le_succ hn
      · simpa using hmem
    obtain ⟨front, rear, rfl, hfront⟩ := List.eq_append_cons_of_mem hmem
    have hname := takeWhile_of_not_mem hfront rear
    refine ⟨by rw [hname]; simp, fun more => ?_⟩
    have hlater := takeWhile_of_not_mem hfront (rear ++ more)
    rw [List.cons_append, List.append_assoc, List.cons_append, markup, hname, hlater]
  · rename_i rest
    obtain ⟨found, hfound, hpair⟩ := exists_ok_of_map h
    obtain ⟨rfl, rfl⟩ := Prod.mk.inj hpair
    obtain ⟨hle, hlater⟩ := closed_declaration hfound
    refine ⟨Nat.succ_le_succ hle, fun more => ?_⟩
    rw [List.cons_append, markup, hlater]
    rfl
  · rename_i rest
    have hmem : '>' ∈ '?' :: rest := hend.elim (fun hn => mem_of_instruction hn h) id
    exact closed_instruction hmem h
  · rename_i hslash hbang hquestion
    obtain ⟨hle, hlater⟩ := closed_element h
    refine ⟨hle, fun more => ?_⟩
    cases t with
    | nil => contradiction
    | cons c rest =>
      rw [List.cons_append, markup.eq_def]
      split
      · rename_i he
        exact absurd (congrArg (· :: rest) (List.cons.inj he).1) (hslash rest)
      · rename_i he
        exact absurd (congrArg (· :: rest) (List.cons.inj he).1) (hbang rest)
      · rename_i he
        exact absurd (congrArg (· :: rest) (List.cons.inj he).1) (hquestion rest)
      · exact hlater more

end ImagePreview.Markup

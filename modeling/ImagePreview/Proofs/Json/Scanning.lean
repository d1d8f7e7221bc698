import ImagePreview.Json.Scanner
import ImagePreview.Proofs.Text.Decimal

/-!
Scanning what is written. The tokens of a value are scanned from its text one after another, and so
is what follows, unless the value ends in a word that what follows goes on with.
-/
namespace ImagePreview.Json

/-! Strings. -/

theorem Unit16.text?_escape {n : Nat} (h : n < 0xD800) (rest : List Unit16) :
    text? (.escape n :: rest) = (text? rest).map (Char.ofNat n :: ·) := by
  have hlow : ¬ 0xD800 ≤ n := by omega
  cases rest with
  | nil => simp [text?, hlow]
  | cons unit rest => cases unit <;> simp [text?, hlow]

theorem ofDigits?_control : ∀ n < 0x20,
    Text.ofDigits? 16 ['0', '0', Nat.digitChar (n / 16), Nat.digitChar (n % 16)] = some n := by
  decide

theorem scanString_plain {c : Char} (hquote : c ≠ '"') (hslash : c ≠ '\\')
    (hplain : ¬ c.toNat < 0x20) (t : Text) :
    scanString (c :: t) = (scanString t).map (Unit16.char c).before := by
  rw [scanString]
  · rw [if_neg (not_or.mpr ⟨hslash, hplain⟩)]
  · exact hquote
  · intro _ _ _ _ _ h
    exact absurd h hslash
  · intro _ _ h
    exact absurd h hslash

theorem exists_unit (c : Char) :
    ∃ unit : Unit16,
      (∀ rest, Unit16.text? (unit :: rest) = (Unit16.text? rest).map (c :: ·)) ∧
        ∀ t, scanString (escapeChar c ++ t) = (scanString t).map unit.before := by
  rw [escapeChar.eq_def]
  split
  case h_8 _ hquote hslash _ _ _ _ _ =>
    split
    · rename_i hcontrol
      refine ⟨.escape c.toNat, fun rest => ?_, fun t => ?_⟩
      · rw [Unit16.text?_escape (by omega), Char.ofNat_toNat]
      · simp [scanString, ofDigits?_control _ hcontrol]
    · rename_i hplain
      exact ⟨.char c, fun rest => rfl, scanString_plain hquote hslash hplain⟩
  all_goals exact ⟨.char _, fun rest => rfl, fun t => by simp [scanString, unescape?]⟩

theorem exists_units (t : Text) :
    ∃ units, Unit16.text? units = some t ∧
      ∀ rest, scanString (t.flatMap escapeChar ++ '"' :: rest) = some (units, rest) := by
  induction t with
  | nil => exact ⟨[], rfl, fun rest => rfl⟩
  | cons c t ih =>
    obtain ⟨units, htext, hscan⟩ := ih
    obtain ⟨unit, hunit, hscanUnit⟩ := exists_unit c
    refine ⟨unit :: units, by rw [hunit, htext]; rfl, fun rest => ?_⟩
    rw [List.flatMap_cons, List.append_assoc, hscanUnit, hscan]
    rfl

theorem scan_string {t rest : Text} {units : List Unit16}
    (h : scanString t = some (units, rest)) :
    scan ('"' :: t) = (scan rest).map (.scalar (.string (Unit16.text? units)) :: ·) := by
  rw [scan, if_neg (by decide), if_pos rfl]
  split
  · rename_i hnone
    rw [h] at hnone
    contradiction
  · rename_i hsome
    obtain ⟨rfl, rfl⟩ := Prod.mk.inj (Option.some.inj (h.symm.trans hsome))
    rfl

/-! Words. -/

/-- Whether a text does not go on with a word that ends before it. -/
def EndsWord (rest : Text) : Prop := ∀ c ∈ rest.head?, isWordChar c = false

theorem takeWhile_append {p : Char → Bool} {word rest : Text} (h : ∀ c ∈ word, p c = true)
    (hrest : ∀ c ∈ rest.head?, p c = false) :
    (word ++ rest).takeWhile p = word ∧ (word ++ rest).dropWhile p = rest := by
  have hstop : rest.takeWhile p = [] ∧ rest.dropWhile p = rest := by
    cases rest with
    | nil => exact ⟨rfl, rfl⟩
    | cons c t =>
      have hc : ¬ p c = true := by simpa using hrest c rfl
      exact ⟨List.takeWhile_cons_of_neg hc, List.dropWhile_cons_of_neg hc⟩
  rw [List.takeWhile_append_of_pos h, List.dropWhile_append_of_pos h, hstop.1, hstop.2,
    List.append_nil]
  exact ⟨rfl, rfl⟩

theorem not_isSpace_of_isWordChar {c : Char} (h : isWordChar c = true) :
    isSpace c = false ∧ c ≠ '"' := by
  refine ⟨Bool.eq_false_iff.mpr fun hspace => ?_, ?_⟩
  · simp only [isSpace, Bool.or_eq_true, beq_iff_eq] at hspace
    obtain ((rfl | rfl) | rfl) | rfl := hspace <;> exact absurd h (by decide)
  · rintro rfl
    exact absurd h (by decide)

theorem scan_word {word rest : Text} {v : Json} (hne : word ≠ [])
    (h : ∀ c ∈ word, isWordChar c = true) (hread : word? word = some v) (hrest : EndsWord rest) :
    scan (word ++ rest) = (scan rest).map (.scalar v :: ·) := by
  obtain ⟨c, t, rfl⟩ := List.exists_cons_of_ne_nil hne
  obtain ⟨hc, ht⟩ := List.forall_mem_cons.mp h
  obtain ⟨hspace, hquote⟩ := not_isSpace_of_isWordChar hc
  obtain ⟨htake, hdrop⟩ := takeWhile_append ht hrest
  rw [List.cons_append, scan, if_neg (by simp [hspace]), if_neg hquote, if_pos hc, htake, hdrop,
    hread]
  rfl

theorem isWordChar_of_isDigit {c : Char} (h : c.isDigit = true) : isWordChar c = true := by
  simp [isWordChar, Char.isAlphanum, h]

theorem unsigned?_ofNat (negative : Bool) (n : Nat) :
    unsigned? negative (Text.ofNat n) =
      if negative then some (if n = 0 then .real else .int (-(n : Int))) else some (.int n) := by
  have hdigits : ∀ c ∈ Text.ofNat n, c.isDigit = true := fun _ => Text.isDigit_of_mem_ofNat
  obtain ⟨htake, hdrop⟩ := @takeWhile_append Char.isDigit (Text.ofNat n) [] hdigits (by simp)
  rw [List.append_nil] at htake hdrop
  rw [unsigned?, htake, hdrop, if_neg (Text.no_leading_zero n), Text.ofDigits?_ofNat]
  rfl

theorem word?_of_isDigit {c : Char} (h : c.isDigit = true) (t : Text) :
    word? (c :: t) = unsigned? false (c :: t) := by
  have hne (other : Text) (hother : other.head?.any Char.isDigit = false) : c :: t ≠ other := by
    rintro rfl
    exact absurd h (by simpa using hother)
  rw [word?, if_neg (hne _ (by decide)), if_neg (hne _ (by decide)), if_neg (hne _ (by decide))]
  exact fun rest => hne _ rfl

theorem word?_ofInt (n : Int) : word? (Text.ofInt n) = some (.int n) := by
  cases n with
  | ofNat n =>
    obtain ⟨c, t, hcons⟩ := List.exists_cons_of_ne_nil (Text.ofNat_ne_nil n)
    have hc : c ∈ Text.ofNat n := by
      rw [hcons]
      exact List.mem_cons_self
    calc
      word? (Text.ofInt n) = word? (c :: t) := congrArg word? hcons
      _ = unsigned? false (Text.ofNat n) := by
        rw [word?_of_isDigit (Text.isDigit_of_mem_ofNat hc), hcons]
      _ = some (.int n) := unsigned?_ofNat false n
  | negSucc n =>
    calc
      word? (Text.ofInt (.negSucc n)) = unsigned? true (Text.ofNat (n + 1)) := rfl
      _ = some (.int (-((n + 1 : Nat) : Int))) := unsigned?_ofNat true (n + 1)
      _ = some (.int (.negSucc n)) := by rw [Int.negSucc_eq]; rfl

theorem isWordChar_of_mem_ofInt {n : Int} {c : Char} (h : c ∈ Text.ofInt n) :
    isWordChar c = true := by
  cases n with
  | ofNat n => exact isWordChar_of_isDigit (Text.isDigit_of_mem_ofNat h)
  | negSucc n =>
    obtain rfl | h := List.mem_cons.mp h
    · rfl
    · exact isWordChar_of_isDigit (Text.isDigit_of_mem_ofNat h)

theorem ofInt_ne_nil (n : Int) : Text.ofInt n ≠ [] := by
  cases n with
  | ofNat n => exact Text.ofNat_ne_nil n
  | negSucc n => exact List.cons_ne_nil _ _

/-! Values. -/

theorem not_isWordChar_of_punctuation {c : Char} {token : Token} (h : punctuation? c = some token) :
    isSpace c = false ∧ c ≠ '"' ∧ isWordChar c = false := by
  rw [punctuation?.eq_def] at h
  split at h <;> first | decide | contradiction

theorem scan_punctuation {c : Char} {token : Token} (h : punctuation? c = some token) (t : Text) :
    scan (c :: t) = (scan t).map (token :: ·) := by
  obtain ⟨hspace, hquote, hword⟩ := not_isWordChar_of_punctuation h
  rw [scan, if_neg (by simp [hspace]), if_neg hquote, if_neg (by simp [hword]), h]
  rfl

def Scans (tokens : List Token) : Prop :=
  ∀ rest, EndsWord rest →
    scan (tokens.flatMap Token.write ++ rest) = (scan rest).map (tokens ++ ·)

namespace Scans

theorem nil : Scans [] := fun rest _ => by simp

/-- A mark ends a word, and no word runs into it. -/
theorem append {a b : List Token} {c : Char} {mark : Token} (ha : Scans a) (hb : Scans b)
    (hmark : punctuation? c = some mark) (hwrite : mark.write = [c]) :
    Scans (a ++ mark :: b) := by
  intro rest hrest
  have hends : EndsWord (c :: (b.flatMap Token.write ++ rest)) := by
    intro d hd
    obtain rfl := Option.some.inj hd
    exact (not_isWordChar_of_punctuation hmark).2.2
  rw [List.flatMap_append, List.flatMap_cons, hwrite, List.append_assoc, List.append_assoc,
    List.singleton_append, ha _ hends, scan_punctuation hmark, hb rest hrest]
  simp [Function.comp_def]

theorem separate {items : List (List Token)} (h : ∀ tokens ∈ items, Scans tokens) :
    Scans (separate .comma items) := by
  induction items with
  | nil => exact nil
  | cons first rest ih =>
    obtain ⟨hfirst, hrest⟩ := List.forall_mem_cons.mp h
    cases rest with
    | nil => exact hfirst
    | cons second rest => exact append hfirst (ih hrest) (c := ',') rfl rfl

theorem string (text : Option Text) : Scans [.scalar (.string text)] := by
  intro rest _
  cases text with
  | none =>
    have hdigits : Text.ofDigits? 16 ['d', '8', '0', '0'] = some 0xD800 := by decide
    have hscan : scanString ("\\ud800\"".toList ++ rest) = some ([.escape 0xD800], rest) := by
      simp [scanString, hdigits, Unit16.before]
    exact scan_string hscan
  | some t =>
    obtain ⟨units, htext, hscan⟩ := exists_units t
    have hwrite : (Token.scalar (.string (some t))).write ++ rest =
        '"' :: (t.flatMap escapeChar ++ '"' :: rest) :=
      List.append_assoc ('"' :: t.flatMap escapeChar) ['"'] rest
    rw [List.flatMap_singleton, hwrite, scan_string (hscan rest), htext]
    rfl

theorem word {v : Json} (hne : (Token.scalar v).write ≠ [])
    (h : (Token.scalar v).write.all isWordChar = true)
    (hread : word? (Token.scalar v).write = some v) : Scans [.scalar v] := by
  intro rest hrest
  rw [List.flatMap_singleton, scan_word hne (List.all_eq_true.mp h) hread hrest]
  rfl

theorem tokens (value : Json) : Scans value.tokens := by
  induction value using Json.induction with
  | scalar v hv =>
    rw [hv]
    cases v with
    | null => exact word (by decide) (by decide) rfl
    | bool b => cases b <;> exact word (by decide) (by decide) rfl
    | int n =>
      have hword : (Text.ofInt n).all isWordChar = true :=
        List.all_eq_true.mpr fun _ => isWordChar_of_mem_ofInt
      exact word (ofInt_ne_nil n) hword (word?_ofInt n)
    | real => exact word (by decide) (by decide) rfl
    | string text => exact string text
    | array items => simp [Json.tokens] at hv
    | object members => simp [Json.tokens] at hv
  | array items ih =>
    have hitems : Scans (Json.separate .comma (items.map Json.tokens)) := by
      refine separate fun ts hts => ?_
      obtain ⟨item, hitem, rfl⟩ := List.mem_map.mp hts
      exact ih item hitem
    rw [Json.tokens, tokensOfItems_eq]
    exact append (append nil hitems (c := '[') rfl rfl) nil (c := ']') rfl rfl
  | object members ih =>
    have hmembers : Scans (Json.separate .comma (members.map memberTokens)) := by
      refine separate fun ts hts => ?_
      obtain ⟨m, hm, rfl⟩ := List.mem_map.mp hts
      exact append (string m.1) (ih m hm) (c := ':') rfl rfl
    rw [Json.tokens, tokensOfMembers_eq]
    exact append (append nil hmembers (c := '{') rfl rfl) nil (c := '}') rfl rfl

end Scans

theorem scan_write (value : Json) : scan value.write = some value.tokens := by
  have hscan := Scans.tokens value [] (by simp [EndsWord])
  rw [List.append_nil] at hscan
  rw [write, hscan, scan]
  simp

end ImagePreview.Json

import ImagePreview.Proofs.Text.Numeral
import ImagePreview.Settings.Environment

/-!
What environment variables settle. A setting is a size, an index or a switch, and a variable gives
it a value by spelling it, with blanks around it or none. Each setting has the value that its own
variable gives it, and the usual one if that gives none.
-/
namespace ImagePreview.Settings

open Text

inductive Kind
  | size
  | index
  | switch

namespace Kind

def Value : Kind → Type
  | size => UInt64
  | index => Int64
  | switch => Bool

instance : (kind : Kind) → DecidableEq kind.Value
  | size => inferInstanceAs (DecidableEq UInt64)
  | index => inferInstanceAs (DecidableEq Int64)
  | switch => inferInstanceAs (DecidableEq Bool)

/-- How a value may be given: a size or an index as a number, with a minus for an index only, a
switch as one of some words in any letter case. -/
def Spells : (kind : Kind) → Text → kind.Value → Prop
  | size, t, (n : UInt64) => Numeral t n.toNat ∧ t.head? ≠ some '-'
  | index, t, (n : Int64) => Numeral t n.toInt
  | switch, t, (b : Bool) => ∃ word ∈ (if b then yesWords else noWords), sameWord t word = true

def write : (kind : Kind) → kind.Value → Text
  | size, (n : UInt64) => ofNat n.toNat
  | index, (n : Int64) => ofInt n.toInt
  | switch, (b : Bool) => if b then "true".toList else "false".toList

def parse : (kind : Kind) → Text → Option kind.Value
  | size => toUInt64?
  | index => toInt64?
  | switch => flag?

/-- The numbers that are no value of a kind, being too small or too great. -/
def Excludes : Kind → Int → Prop
  | size, n => n < 0 ∨ 18446744073709551615 < n
  | index, n => n < -9223372036854775808 ∨ 9223372036854775807 < n
  | switch, _ => False

end Kind

def Key.kind : Key → Kind
  | least | most => .size
  | maxIndex => .index
  | deferScripts | lazyImages | lazyFullImages | inlinePreviews | mobilePreviews | keepDocument
  | debug => .switch

def value (settings : Settings) : (key : Key) → key.kind.Value
  | .least => settings.limits.least
  | .most => settings.limits.most
  | .maxIndex => settings.maxIndex
  | .deferScripts => settings.deferScripts
  | .lazyImages => settings.lazyImages
  | .lazyFullImages => settings.lazyFullImages
  | .inlinePreviews => settings.inlinePreviews
  | .mobilePreviews => settings.mobilePreviews
  | .keepDocument => settings.keepDocument
  | .debug => settings.debug

def usual (key : Key) : key.kind.Value := ({} : Settings).value key

/-- The variable of a setting spells a value, blanks around it aside. -/
def Environment.Gives (env : Environment) (key : Key) (value : key.kind.Value) : Prop :=
  ∃ front t behind : Text, (∀ c ∈ front, isBlank c = true) ∧ (∀ c ∈ behind, isBlank c = true) ∧
    key.kind.Spells t value ∧ env key.variable = some (front ++ (t ++ behind))

section Kinds

theorem contains_lower_iff (words : List Text) (h : ∀ word ∈ words, lower word = word) (t : Text) :
    words.contains (lower t) = true ↔ ∃ word ∈ words, sameWord t word = true := by
  rw [List.contains_iff_mem]
  constructor
  · intro hmem
    exact ⟨lower t, hmem, beq_iff_eq.mpr (h _ hmem).symm⟩
  · rintro ⟨word, hmem, hsame⟩
    have hword : lower t = word := (beq_iff_eq.mp hsame).trans (h word hmem)
    rwa [hword]

theorem flag?_eq_some {t : Text} {b : Bool} : flag? t = some b ↔ Kind.switch.Spells t b := by
  have hyes := contains_lower_iff yesWords (by decide) t
  have hno := contains_lower_iff noWords (by decide) t
  -- no word stands for both, so it does not matter which are tried first
  have hone : yesWords.contains (lower t) = true → noWords.contains (lower t) = false := by
    intro h
    have hnone : ∀ word ∈ yesWords, noWords.contains word = false := by decide
    exact hnone _ (List.contains_iff_mem.mp h)
  rw [flag?]
  cases b with
  | true =>
    refine Iff.trans ?_ hyes
    split
    · exact iff_of_true rfl ‹_›
    · split
      · exact iff_of_false nofun ‹_›
      · exact iff_of_false nofun ‹_›
  | false =>
    refine Iff.trans ?_ hno
    split
    · rw [hone ‹_›]
      exact iff_of_false nofun Bool.false_ne_true
    · split
      · exact iff_of_true rfl ‹_›
      · exact iff_of_false nofun ‹_›

theorem Kind.parse_eq_some {kind : Kind} {t : Text} {value : kind.Value} :
    kind.parse t = some value ↔ kind.Spells t value := by
  cases kind with
  | size => exact toUInt64?_eq_some
  | index => exact toInt64?_eq_some
  | switch => exact flag?_eq_some

theorem Kind.spells_write (kind : Kind) (value : kind.Value) :
    kind.Spells (kind.write value) value := by
  cases kind with
  | size =>
    have hdecimal := isDecimal_ofNat (UInt64.toNat value)
    exact ⟨.plain hdecimal, hdecimal.head?_ne (by decide)⟩
  | index => exact numeral_ofInt _
  | switch =>
    cases value with
    | true => exact ⟨"true".toList, by decide, by decide⟩
    | false => exact ⟨"false".toList, by decide, by decide⟩

/-- No blank stands in a value, so that it is clear where the value begins and ends. -/
theorem Kind.Spells.not_isBlank {kind : Kind} {t : Text} {value : kind.Value}
    (h : kind.Spells t value) : ∀ c ∈ t, isBlank c = false := by
  cases kind with
  | size => exact h.1.not_isBlank
  | index => exact Numeral.not_isBlank h
  | switch =>
    obtain ⟨word, hword, hsame⟩ := h
    have hplain : ((yesWords ++ noWords).all fun word =>
        (lower word).all fun c => !isBlank c) = true := by decide
    have hmem : word ∈ yesWords ++ noWords := by
      rw [List.mem_append]
      cases value with
      | true => exact .inl hword
      | false => exact .inr hword
    intro c hc
    cases hblank : isBlank c with
    | false => rfl
    | true =>
      have hlower : c.toLower ∈ lower t := List.mem_map_of_mem hc
      rw [beq_iff_eq.mp hsame, toLower_of_isBlank hblank] at hlower
      have hnot := List.all_eq_true.mp (List.all_eq_true.mp hplain word hmem) c hlower
      rw [hblank] at hnot
      exact absurd hnot Bool.false_ne_true

/-- A number that is no value of a kind spells no other value either. -/
theorem Kind.Spells.not_excludes {kind : Kind} {t : Text} {value : kind.Value} {n : Int}
    (h : kind.Spells t value) (hn : Numeral t n) : ¬kind.Excludes n := by
  cases kind with
  | size =>
    have hsame := hn.unique h.1
    have hmost := UInt64.toNat_lt value
    rintro (hout | hout)
    · omega
    · omega
  | index =>
    have hsame := hn.unique h
    have hleast := Int64.le_toInt value
    have hmost := Int64.toInt_lt value
    rintro (hout | hout)
    · omega
    · omega
  | switch => exact id

end Kinds

theorem Key.variable_injective {a b : Key} (h : a.variable = b.variable) : a = b := by
  have hall : ∀ a ∈ Key.all, ∀ b ∈ Key.all, a.variable = b.variable → a = b := by decide +kernel
  exact hall a a.mem_all b b.mem_all h

theorem ext_value {a b : Settings} (h : ∀ key, a.value key = b.value key) : a = b := by
  obtain ⟨⟨_, _⟩, _, _, _, _, _, _, _, _⟩ := a
  obtain ⟨⟨_, _⟩, _, _, _, _, _, _, _, _⟩ := b
  simp only [Settings.mk.injEq, SizeLimits.mk.injEq]
  exact ⟨⟨h .least, h .most⟩, h .maxIndex, h .deferScripts, h .lazyImages, h .lazyFullImages,
    h .inlinePreviews, h .mobilePreviews, h .keepDocument, h .debug⟩

section Reading

variable (env : Environment) (key : Key)

theorem Environment.gives_iff (value : key.kind.Value) :
    env.Gives key value ↔
      ((env key.variable).bind fun raw => key.kind.parse (trim raw)) = some value := by
  rw [Option.bind_eq_some_iff]
  constructor
  · rintro ⟨front, t, behind, hfront, hbehind, hspells, hraw⟩
    refine ⟨_, hraw, ?_⟩
    rw [trim_append_blanks hfront hbehind, trim_of_not_isBlank hspells.not_isBlank]
    exact Kind.parse_eq_some.mpr hspells
  · rintro ⟨raw, hraw, hparse⟩
    obtain ⟨front, behind, hfront, hbehind, htrim⟩ := exists_trim raw
    exact ⟨front, trim raw, behind, hfront, hbehind, Kind.parse_eq_some.mp hparse, htrim ▸ hraw⟩

theorem value_ofEnvironment :
    (ofEnvironment env).value key =
      ((env key.variable).bind fun raw => key.kind.parse (trim raw)).getD (usual key) := by
  cases key <;> rfl

variable {env key}

theorem value_of_gives {value : key.kind.Value} (h : env.Gives key value) :
    (ofEnvironment env).value key = value := by
  rw [value_ofEnvironment, (env.gives_iff key value).mp h, Option.getD_some]

theorem value_of_not_gives (h : ∀ value, ¬env.Gives key value) :
    (ofEnvironment env).value key = usual key := by
  rw [value_ofEnvironment]
  cases hread : (env key.variable).bind fun raw => key.kind.parse (trim raw) with
  | none => rfl
  | some value => exact absurd ((env.gives_iff key value).mpr hread) (h value)

theorem not_gives_of_excludes {raw : Text} {n : Int} (hraw : env key.variable = some raw)
    (hn : Numeral (trim raw) n) (hout : key.kind.Excludes n) (value : key.kind.Value) :
    ¬env.Gives key value := by
  intro h
  obtain ⟨_, hsome, hparse⟩ := Option.bind_eq_some_iff.mp ((env.gives_iff key value).mp h)
  rw [hraw] at hsome
  rw [← Option.some.inj hsome] at hparse
  exact (Kind.parse_eq_some.mp hparse).not_excludes hn hout

end Reading

/-- Settings are read back from variables that spell them, however they do, and all of them can be
spelled. Whatever the variables say, each setting has the value that its own variable gives it, and
the usual one if that is missing or gives none, as when its number is too small or too great; the
other variables have no part in it. -/
theorem environment_settles (env : Environment) :
    (∀ settings : Settings, (∀ key, env.Gives key (settings.value key)) →
        ofEnvironment env = settings) ∧
      (∀ (kind : Kind) (value : kind.Value), kind.Spells (kind.write value) value) ∧
      (∀ (key : Key) (value : key.kind.Value), (ofEnvironment env).value key = value ↔
        env.Gives key value ∨ (∀ other, ¬env.Gives key other) ∧ value = usual key) ∧
      (∀ (key : Key) (raw : Text) (n : Int), env key.variable = some raw →
        Numeral (trim raw) n → key.kind.Excludes n →
          (ofEnvironment env).value key = usual key) ∧
      ∀ (other : Environment) (changed : Key),
        (∀ name, name ≠ changed.variable → other name = env name) →
          ∀ key, key ≠ changed →
            (ofEnvironment other).value key = (ofEnvironment env).value key := by
  refine ⟨fun settings h => ext_value fun key => value_of_gives (h key), Kind.spells_write,
    fun key value => ?_, fun key raw n hraw hn hout => ?_, fun other changed hsame key hkey => ?_⟩
  · constructor
    · rintro rfl
      by_cases hgives : ∃ value, env.Gives key value
      · obtain ⟨value, hvalue⟩ := hgives
        rw [value_of_gives hvalue]
        exact .inl hvalue
      · rw [not_exists] at hgives
        exact .inr ⟨hgives, value_of_not_gives hgives⟩
    · rintro (hvalue | ⟨hnone, rfl⟩)
      · exact value_of_gives hvalue
      · exact value_of_not_gives hnone
  · exact value_of_not_gives (not_gives_of_excludes hraw hn hout)
  · have hvariable : key.variable ≠ changed.variable := fun h => hkey (Key.variable_injective h)
    rw [value_ofEnvironment, value_ofEnvironment, hsame key.variable hvariable]

def Environment.ofKeys (given : Key → Option Text) : Environment := fun name =>
  (Key.all.find? fun key => key.variable == name).bind given

theorem Environment.ofKeys_variable (given : Key → Option Text) (key : Key) :
    ofKeys given key.variable = given key := by
  rw [ofKeys]
  cases hfound : Key.all.find? fun other => other.variable == key.variable with
  | none => exact absurd (beq_self_eq_true _) (List.find?_eq_none.mp hfound key key.mem_all)
  | some other =>
    have hsame : other.variable == key.variable := by simpa using List.find?_some hfound
    rw [Key.variable_injective (beq_iff_eq.mp hsame), Option.bind_some]

namespace Sample

def given : Key → Text
  | .least => " +00512\n".toList
  | .most => "18446744073709551615".toList
  | .maxIndex => "\t-9223372036854775808".toList
  | .deferScripts => "1".toList
  | .lazyImages => " TRUE ".toList
  | .lazyFullImages => "oN".toList
  | .inlinePreviews => "0".toList
  | .mobilePreviews => "Yes".toList
  | .keepDocument => "off\u00a0".toList
  | .debug => "No".toList

def environment : Environment := .ofKeys fun key => some (given key)

def overfull : Environment := fun name =>
  if name = Key.least.variable then some "18446744073709551616".toList else environment name

def settings : Settings where
  limits := ⟨512, 18446744073709551615⟩
  maxIndex := -9223372036854775808
  deferScripts := true
  lazyImages := true
  lazyFullImages := true
  mobilePreviews := true

end Sample

/-- In the example, every variable gives a value, and the least size no longer does when its number
is too great. -/
theorem sample_environment_settles :
    ofEnvironment Sample.environment = Sample.settings ∧
      (ofEnvironment Sample.overfull).value .least = usual .least ∧
      (ofEnvironment Sample.overfull).value .maxIndex =
        (ofEnvironment Sample.environment).value .maxIndex := by
  obtain ⟨hback, -, -, -, hapart⟩ := environment_settles Sample.environment
  obtain ⟨-, -, -, hout, -⟩ := environment_settles Sample.overfull
  refine ⟨hback Sample.settings fun key => ?_, ?_, ?_⟩
  · rw [Environment.gives_iff, Sample.environment, Environment.ofKeys_variable, Option.bind_some]
    cases key <;> decide +kernel
  · refine hout .least "18446744073709551616".toList 18446744073709551616 (if_pos rfl) ?_
      (.inr (by decide))
    exact toInt?_eq_some.mp (by decide +kernel)
  · exact hapart Sample.overfull .least (fun name hname => if_neg hname) .maxIndex (by decide)

end ImagePreview.Settings

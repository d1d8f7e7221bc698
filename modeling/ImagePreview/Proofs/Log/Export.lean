import ImagePreview.Log.Json
import ImagePreview.Proofs.Json.Reading
import Mathlib.Logic.Basic
import Mathlib.Tactic.Simproc.ExistsAndEq

/-!
The exported log. Of each part of a log, what is read from a value is exactly what the value is
written for, so that no log is lost, and none is mistaken for another.
-/
namespace ImagePreview.Log

/-- A value is parsed as something if and only if it is what that is written as. -/
def Inverts (parse : Json → Option α) (toJson : α → Json) : Prop :=
  ∀ value a, parse value = some a ↔ value = toJson a

section Members

variable {name : String} {parse : Json → Option α} {toJson : α → Json} {members rest : Members}

theorem Inverts.eq_some (h : Inverts parse toJson) {value : Json} {a : α} :
    parse value = some a ↔ value = toJson a := h value a

theorem required?_eq_some (h : Inverts parse toJson) {a : α} :
    required? name parse members = some (a, rest) ↔ members = member name (toJson a) :: rest := by
  cases members with
  | nil => simp [required?]
  | cons first after =>
    obtain ⟨key, value⟩ := first
    by_cases hkey : key = some name.toList
    · simp [required?, member, hkey, h.eq_some]
    · simp [required?, member, hkey]

/-- If nothing is found, the next member has another name. -/
theorem optional?_eq_some (h : Inverts parse toJson) {found : Option α} :
    optional? name parse members = some (found, rest) ↔
      members = (found.map fun a => member name (toJson a)).toList ++ rest ∧
        (found = none → ∀ m ∈ members.head?, m.1 ≠ some name.toList) := by
  cases members with
  | nil => cases found <;> simp [optional?, @eq_comm _ ([] : Members)]
  | cons first after =>
    obtain ⟨key, value⟩ := first
    by_cases hkey : key = some name.toList
    · cases found <;> simp [optional?, member, hkey, h.eq_some]
    · cases found <;> simp [optional?, member, hkey]

end Members

theorem inverts_text : Inverts text? (fun t => .string (some t)) := by
  intro value t
  cases value <;> simp [text?]

theorem inverts_bool : Inverts bool? .bool := by
  intro value b
  cases value <;> simp [bool?]

theorem inverts_size : Inverts size? (fun size => .int size.toNat) := by
  intro value size
  cases value with
  | int n => simp [size?, Text.unsigned64?_eq_some]
  | _ => simp [size?]

/-- Words are told apart by their texts, if each is read as what it is written for. -/
theorem inverts_words {ofText? : Text → Option α} {toJson : α → Json}
    (hread : ∀ t a, ofText? t = some a → toJson a = .string (some t))
    (hwritten : ∀ a, (text? (toJson a)).bind ofText? = some a) :
    Inverts (fun value => (text? value).bind ofText?) toJson := by
  intro value a
  constructor
  · intro h
    obtain ⟨t, ht, h⟩ := Option.bind_eq_some_iff.mp h
    rw [inverts_text.eq_some.mp ht, hread t a h]
  · rintro rfl
    exact hwritten a

/-- One more word, tried before the others. -/
theorem toJson_of_choice {toJson : α → Json} {w : String} {t : Text} {a b : α} {others : Option α}
    (hword : toJson b = word w) (hothers : others = some a → toJson a = .string (some t))
    (h : (if t = w.toList then some b else others) = some a) : toJson a = .string (some t) := by
  split at h
  · rename_i hsame
    rw [← Option.some.inj h, hword, word, hsame]
  · exact hothers h

theorem inverts_outcome : Inverts Outcome.ofJson? Outcome.toJson := by
  refine inverts_words (fun t outcome => ?_) fun outcome => by cases outcome <;> rfl
  exact toJson_of_choice rfl (toJson_of_choice rfl nofun)

theorem inverts_status : Inverts Status.ofJson? Status.toJson := by
  refine inverts_words (fun t status => ?_) fun status => by cases status <;> rfl
  exact toJson_of_choice rfl (toJson_of_choice rfl (toJson_of_choice rfl nofun))

theorem inverts_list {parse : Json → Option α} {toJson : α → Json} (h : Inverts parse toJson) :
    Inverts (list? parse) (fun as => .array (as.map toJson)) := by
  intro value as
  cases value with
  | array items =>
    rw [list?, Json.array.injEq]
    induction items generalizing as with
    | nil => simp [eq_comm]
    | cons item rest ih =>
      cases as with
      | nil => simp [Option.bind_eq_some_iff]
      | cons a as => simp [Option.bind_eq_some_iff, h.eq_some, ih]
  | _ => simp [list?]

theorem inverts_resource : Inverts Resource.ofJson? Resource.toJson := by
  intro value resource
  cases value with
  | object members =>
    obtain ⟨inlined, critical⟩ := resource
    simp [Resource.ofJson?, Resource.toJson, Option.bind_eq_some_iff,
      required?_eq_some inverts_bool]
  | _ => simp [Resource.ofJson?, Resource.toJson]

theorem inverts_image : Inverts ImageInfo.ofJson? ImageInfo.toJson := by
  intro value image
  cases value with
  | object members =>
    obtain ⟨inserted, size⟩ := image
    simp [ImageInfo.ofJson?, ImageInfo.toJson, Option.bind_eq_some_iff,
      required?_eq_some inverts_bool, required?_eq_some inverts_size]
  | _ => simp [ImageInfo.ofJson?, ImageInfo.toJson]

theorem inverts_record : Inverts Record.ofJson? Record.toJson := by
  intro value record
  cases value with
  | object members =>
    obtain ⟨id, outcome, resource, image⟩ := record
    -- an image behind a resource that is not there is not taken for one
    cases resource <;> cases image <;>
      simp [Record.ofJson?, Record.toJson, Option.bind_eq_some_iff, required?_eq_some inverts_text,
        required?_eq_some inverts_outcome, optional?_eq_some inverts_resource,
        optional?_eq_some inverts_image, member]
  | _ => simp [Record.ofJson?, Record.toJson]

theorem inverts_stats : Inverts Stats.ofJson? Stats.toJson := by
  intro value stats
  cases value with
  | object members =>
    obtain ⟨id, status⟩ := stats
    simp [Stats.ofJson?, Stats.toJson, Option.bind_eq_some_iff, required?_eq_some inverts_text,
      required?_eq_some inverts_status]
  | _ => simp [Stats.ofJson?, Stats.toJson]

theorem inverts_log : Inverts ofJson? toJson := by
  intro value log
  cases value with
  | object members =>
    obtain ⟨records, stats⟩ := log
    simp [ofJson?, toJson, Option.bind_eq_some_iff,
      required?_eq_some (inverts_list inverts_record),
      required?_eq_some (inverts_list inverts_stats)]
  | _ => simp [ofJson?, toJson]

/-- The text of a log is JSON for its records and statistics, and the log is read back from it. A
value is read as a log if it has the members of the log in their order, without those that a record
lacks, and no other value is; so another log has another text. -/
theorem export_reads_back (log : Log) :
    Json.read? log.toJsonText = some log.toJson ∧ ofJsonText? log.toJsonText = some log ∧
      (∀ value, ofJson? value = some log ↔ value = log.toJson) ∧
      ∀ other : Log, other.toJsonText = log.toJsonText ↔ other = log := by
  have hread (log : Log) : Json.read? log.toJsonText = some log.toJson :=
    Json.read?_write log.toJson
  have hback (log : Log) : ofJsonText? log.toJsonText = some log := by
    rw [ofJsonText?, hread]
    exact inverts_log.eq_some.mpr rfl
  refine ⟨hread log, hback log, fun value => inverts_log value log, fun other => ?_⟩
  constructor
  · intro h
    have hsame := hback other
    rw [h, hback log] at hsame
    exact (Option.some.inj hsame).symm
  · rintro rfl
    rfl

end ImagePreview.Log

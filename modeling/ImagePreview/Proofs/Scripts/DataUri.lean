import ImagePreview.Proofs.Scripts.Register
import ImagePreview.Proofs.Scripts.Statements
import ImagePreview.Proofs.Text.Base64

/-!
Previews as urls. The content type of a preview may hold anything, also what looks like the mark in
front of its bytes; but the bytes are written without such a mark, so it is the last one that they
stand behind. They are written without anything that a script would escape, too.
-/
namespace ImagePreview

open Text Script

/-- What stands before and behind a mark, not the empty one, where it stands last. -/
def Text.splitLast? (mark : Text) : Text → Option (Text × Text)
  | [] => none
  | c :: t =>
    match splitLast? mark t with
    | some (front, behind) => some (c :: front, behind)
    | none =>
      if mark.isPrefixOf (c :: t) then some ([], (c :: t).drop mark.length) else none

namespace Text

variable {first : Char} {mark t : Text}

theorem splitLast?_of_not_mem (h : first ∉ t) : splitLast? (first :: mark) t = none := by
  induction t with
  | nil => rfl
  | cons c t ih =>
    rw [List.mem_cons, not_or] at h
    have hother : (first :: mark).isPrefixOf (c :: t) = false := by
      simp [List.isPrefixOf, h.1]
    rw [splitLast?, ih h.2, hother]
    rfl

theorem splitLast?_append {behind : Text} (h : first ∉ mark ++ behind) (front : Text) :
    splitLast? (first :: mark) (front ++ (first :: mark ++ behind)) = some (front, behind) := by
  induction front with
  | nil =>
    have hbegins : (first :: mark).isPrefixOf (first :: (mark ++ behind)) = true :=
      List.isPrefixOf_iff_prefix.mpr (List.prefix_append (first :: mark) behind)
    rw [List.nil_append, List.cons_append, splitLast?, splitLast?_of_not_mem h, hbegins]
    simp
  | cons c front ih => rw [List.cons_append, splitLast?, ih]

theorem eq_of_splitLast? {front behind : Text} (h : splitLast? mark t = some (front, behind)) :
    t = front ++ (mark ++ behind) := by
  induction t generalizing front with
  | nil => contradiction
  | cons c t ih =>
    rw [splitLast?] at h
    split at h
    · rename_i hlater
      obtain ⟨rfl, rfl⟩ := Prod.mk.inj (Option.some.inj h)
      rw [ih hlater, List.cons_append]
    · split at h
      · rename_i hbegins
        obtain ⟨rest, hrest⟩ := List.isPrefixOf_iff_prefix.mp hbegins
        obtain ⟨rfl, rfl⟩ := Prod.mk.inj (Option.some.inj h)
        rw [← hrest, List.drop_left, List.nil_append]
      · contradiction

theorem JsLiteral.escape_encode (bytes : List UInt8) :
    escape (Base64.encode bytes) = Base64.encode bytes := by
  have hdigits : Base64.alphabet.all isInert = true := by decide +kernel
  apply escape_of_isInert
  intro c hc
  rcases Base64.mem_encode bytes c hc with hc | rfl
  · exact List.all_eq_true.mp hdigits c hc
  · rfl

end Text

namespace Preview

def scheme : Text := "data:".toList

def bytesMark : Text := ";base64,".toList

def ofDataUri? (uri : Text) : Option (Text × List UInt8) :=
  if scheme.isPrefixOf uri then
    (splitLast? bytesMark (uri.drop scheme.length)).bind fun parts =>
      (Base64.decode parts.2).map fun bytes => (parts.1, bytes)
  else none

variable (preview : Preview)

theorem dataUri_eq_append : preview.dataUri =
    scheme ++ (preview.contentType ++ (bytesMark ++ Base64.encode preview.bytes)) := by
  rw [← List.append_assoc, ← List.append_assoc]
  rfl

/-- No mark begins in the bytes, nor behind the beginning of the mark before them. -/
theorem semicolon_not_mem (bytes : List UInt8) :
    ';' ∉ "base64,".toList ++ Base64.encode bytes := by
  rw [List.mem_append, not_or]
  refine ⟨by decide, fun h => ?_⟩
  rcases Base64.mem_encode bytes ';' h with h | h
  · exact absurd h (by decide)
  · exact absurd h (by decide)

theorem ofDataUri?_eq_some {uri : Text} :
    ofDataUri? uri = some (preview.contentType, preview.bytes) ↔ uri = preview.dataUri := by
  have hmark : bytesMark = ';' :: "base64,".toList := by decide
  rw [dataUri_eq_append, ofDataUri?]
  constructor
  · intro h
    split at h
    · rename_i hbegins
      obtain ⟨rest, rfl⟩ := List.isPrefixOf_iff_prefix.mp hbegins
      rw [List.drop_left] at h
      obtain ⟨⟨contentType, code⟩, hsplit, h⟩ := Option.bind_eq_some_iff.mp h
      obtain ⟨bytes, hdecode, h⟩ := Option.map_eq_some_iff.mp h
      obtain ⟨rfl, rfl⟩ := Prod.mk.inj h
      have hcode : code = Base64.encode preview.bytes := Base64.decode_eq_some.mp hdecode
      rw [eq_of_splitLast? hsplit, hcode]
    · contradiction
  · rintro rfl
    have hbegins : scheme.isPrefixOf (scheme ++
        (preview.contentType ++ (bytesMark ++ Base64.encode preview.bytes))) = true :=
      List.isPrefixOf_iff_prefix.mpr (List.prefix_append _ _)
    rw [if_pos hbegins, List.drop_left, hmark,
      splitLast?_append (semicolon_not_mem preview.bytes)]
    simp [Base64.decode_encode]

theorem dataUri_eq_iff (other : Preview) : other.dataUri = preview.dataUri ↔
    other.contentType = preview.contentType ∧ other.bytes = preview.bytes := by
  rw [← ofDataUri?_eq_some, (ofDataUri?_eq_some other).mpr rfl, Option.some.injEq, Prod.mk.injEq]

theorem escape_dataUri : JsLiteral.escape preview.dataUri =
    JsLiteral.escape (scheme ++ preview.contentType ++ bytesMark) ++
      Base64.encode preview.bytes :=
  calc JsLiteral.escape preview.dataUri
    _ = JsLiteral.escape (scheme ++ preview.contentType ++ bytesMark ++
          Base64.encode preview.bytes) := rfl
    _ = JsLiteral.escape (scheme ++ preview.contentType ++ bytesMark) ++
          JsLiteral.escape (Base64.encode preview.bytes) := JsLiteral.escape_append _ _
    _ = _ := by rw [JsLiteral.escape_encode]

end Preview

namespace Script

/-- The url of an image, and content type and bytes of the preview that a call registers for it. -/
def Call.registered? : Call → Option (Text × Text × List UInt8)
  | ⟨function, [url, uri]⟩ =>
    if function = registerFunction then
      (Preview.ofDataUri? uri).map fun preview => (url, preview)
    else none
  | _ => none

def received? (script : Text) : Option (List (Text × Text × List UInt8)) :=
  ((lexemes? script).bind (calls? .start)).map fun calls => calls.filterMap Call.registered?

theorem registered?_call (shown : Text × Preview) :
    (Registration.of shown).call.registered? =
      some (shown.1, shown.2.contentType, shown.2.bytes) := by
  rw [Registration.of, Registration.call, Call.registered?, if_pos rfl,
    shown.2.ofDataUri?_eq_some.mpr rfl, Option.map_some]

theorem received?_registering (shown : List (Text × Preview)) :
    received? ((registering (shown.map .of)).flatMap Call.write ++ ['\n']) =
      some (shown.map fun s => (s.1, s.2.contentType, s.2.bytes)) := by
  have hcalls : (registering (shown.map .of)).filterMap Call.registered? =
      shown.map fun s => (s.1, s.2.contentType, s.2.bytes) := by
    have hall : Call.registered? ∘ Registration.call ∘ Registration.of =
        some ∘ fun s : Text × Preview => (s.1, s.2.contentType, s.2.bytes) :=
      funext registered?_call
    rw [registering, List.filterMap_append, List.map_map, List.filterMap_map, hall,
      ← List.filterMap_map, List.filterMap_some]
    exact List.append_nil _
  rw [received?, read_registering, Option.map_some, hcalls]

end Script

/-- The url of a preview holds its content type and bytes, and no other url holds them; so previews
with one url are alike. The bytes are written into a script as they stand in the url, and from a
block that registers previews, which ends where its script does, these very previews are read. -/
theorem data_uri_identifies (preview : Preview) :
    (∀ uri, Preview.ofDataUri? uri = some (preview.contentType, preview.bytes) ↔
        uri = preview.dataUri) ∧
      (∀ other : Preview, other.dataUri = preview.dataUri ↔
        other.contentType = preview.contentType ∧ other.bytes = preview.bytes) ∧
      JsLiteral.escape preview.dataUri =
        JsLiteral.escape (Preview.scheme ++ preview.contentType ++ Preview.bytesMark) ++
          Base64.encode preview.bytes ∧
      ∀ (assets : Assets) (debug : Bool) (shown : List (Text × Preview)), ∃ script,
        (Block.registrations (shown.map .of)).write assets debug =
            Block.scriptOpen ++ script ++ Block.scriptClose ∧
          '<' ∉ script ∧
          received? script = some (shown.map fun s => (s.1, s.2.contentType, s.2.bytes)) := by
  refine ⟨fun uri => preview.ofDataUri?_eq_some, preview.dataUri_eq_iff, preview.escape_dataUri,
    fun assets debug shown => ?_⟩
  exact ⟨_, Block.write_registrations assets debug _, lt_not_mem_registering _,
    received?_registering shown⟩

end ImagePreview

import ImagePreview.Json.Reader
import ImagePreview.Log.Basic

/-!
The log as JSON, and back. Members stand in a fixed order, and those that a record lacks are left
out.
-/
namespace ImagePreview.Log

def word (w : String) : Json := .string (some w.toList)

def member (name : String) (value : Json) : Option Text × Json := (some name.toList, value)

def Outcome.toJson : Outcome → Json
  | applied => word "APPLIED_OK"
  | notApplied => word "NOT_APPLIED"

def Status.toJson : Status → Json
  | active => word "ACTIVE"
  | clientUnsupported => word "USER_AGENT_NOT_SUPPORTED"
  | notApplied => word "NOT_APPLIED"

def Resource.toJson (r : Resource) : Json :=
  .object [member "is_inlined" (.bool r.inlined), member "is_critical" (.bool r.critical)]

def ImageInfo.toJson (i : ImageInfo) : Json :=
  .object
    [member "is_low_res_src_inserted" (.bool i.previewInserted),
      member "low_res_size" (.int i.previewSize.toNat)]

def Record.toJson (r : Record) : Json :=
  .object <|
    [member "id" (.string (some r.id)), member "status" r.outcome.toJson] ++
      (r.resource.map fun x => member "resource" x.toJson).toList ++
      (r.image.map fun x => member "image" x.toJson).toList

def Stats.toJson (s : Stats) : Json :=
  .object [member "id" (.string (some s.id)), member "html_status" s.status.toJson]

def toJson (log : Log) : Json :=
  .object
    [member "rewriter_info" (.array (log.records.map Record.toJson)),
      member "rewriter_stats" (.array (log.stats.map Stats.toJson))]

def toJsonText (log : Log) : Text := log.toJson.write

/-! Reading takes the members in the order in which they are written. -/

abbrev Members := List (Option Text × Json)

def required? (name : String) (parse : Json → Option α) : Members → Option (α × Members)
  | [] => none
  | (key, value) :: rest =>
    if key = some name.toList then (parse value).map fun a => (a, rest) else none

def optional? (name : String) (parse : Json → Option α) : Members → Option (Option α × Members)
  | [] => some (none, [])
  | (key, value) :: rest =>
    if key = some name.toList then (parse value).map fun a => (some a, rest)
    else some (none, (key, value) :: rest)

def text? : Json → Option Text
  | .string t => t
  | _ => none

def bool? : Json → Option Bool
  | .bool b => some b
  | _ => none

def size? : Json → Option UInt64
  | .int n => Text.unsigned64? n
  | _ => none

def Outcome.ofJson? (value : Json) : Option Outcome :=
  (text? value).bind fun t =>
    if t = "APPLIED_OK".toList then some applied
    else if t = "NOT_APPLIED".toList then some notApplied
    else none

def Status.ofJson? (value : Json) : Option Status :=
  (text? value).bind fun t =>
    if t = "ACTIVE".toList then some active
    else if t = "USER_AGENT_NOT_SUPPORTED".toList then some clientUnsupported
    else if t = "NOT_APPLIED".toList then some notApplied
    else none

def Resource.ofJson? : Json → Option Resource
  | .object members => do
    let (inlined, rest) ← required? "is_inlined" bool? members
    let (critical, rest) ← required? "is_critical" bool? rest
    if rest.isEmpty then some ⟨inlined, critical⟩ else none
  | _ => none

def ImageInfo.ofJson? : Json → Option ImageInfo
  | .object members => do
    let (inserted, rest) ← required? "is_low_res_src_inserted" bool? members
    let (size, rest) ← required? "low_res_size" size? rest
    if rest.isEmpty then some ⟨inserted, size⟩ else none
  | _ => none

def Record.ofJson? : Json → Option Record
  | .object members => do
    let (id, rest) ← required? "id" text? members
    let (outcome, rest) ← required? "status" Outcome.ofJson? rest
    let (resource, rest) ← optional? "resource" Resource.ofJson? rest
    let (image, rest) ← optional? "image" ImageInfo.ofJson? rest
    if rest.isEmpty then some { id, outcome, resource, image } else none
  | _ => none

def Stats.ofJson? : Json → Option Stats
  | .object members => do
    let (id, rest) ← required? "id" text? members
    let (status, rest) ← required? "html_status" Status.ofJson? rest
    if rest.isEmpty then some ⟨id, status⟩ else none
  | _ => none

def list? (parse : Json → Option α) : Json → Option (List α)
  | .array items => items.mapM parse
  | _ => none

def ofJson? : Json → Option Log
  | .object members => do
    let (records, rest) ← required? "rewriter_info" (list? Record.ofJson?) members
    let (stats, rest) ← required? "rewriter_stats" (list? Stats.ofJson?) rest
    if rest.isEmpty then some ⟨records, stats⟩ else none
  | _ => none

def ofJsonText? (t : Text) : Option Log := (Json.read? t).bind ofJson?

end ImagePreview.Log

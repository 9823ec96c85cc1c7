import RouteDocs.Document.Render
import RouteDocs.Proofs.Json.Keys

namespace RouteDocs
namespace Json

/-!
# The fields of a document

A document is read by going from key to key.  Taking out the reserved keys
keeps all other keys with their order, so a key that is not reserved has after
it what it had before, only without the reserved keys inside.
-/

/-- The value under a key of an object; anything else has none. -/
def field? (value : Json) (name : String) : Option Json :=
  (entriesOf (some value)).get? name

/-- The items of an optional list; anything else has none. -/
def itemsOf (value : Option Json) : List Json :=
  match value with
  | some (.list items) => items
  | _ => []

@[simp] theorem field?_object (entries : Entries Json) (name : String) :
    (Json.object entries).field? name = entries.get? name := rfl

theorem get?_entriesOf (value : Option Json) (name : String) :
    (entriesOf value).get? name = value.bind fun inner => inner.field? name := by
  cases value <;> rfl

/-- The entries of an object inside an object have distinct keys. -/
theorem nodup_names_entriesOf {entries : Entries Json}
    (distinct : ∀ entry ∈ entries, entry.2.keysDistinct = true) (name : String) :
    (entriesOf (entries.get? name)).names.Nodup := by
  cases found : entries.get? name with
  | none => exact List.nodup_nil
  | some value =>
    have inside := distinct _ (Entries.mem_of_get?_eq_some found)
    cases value with
    | object inner => exact (keysDistinct_object.mp inside).1
    | _ => exact List.nodup_nil

/-! ## Without the reserved keys -/

theorem get?_withoutReservedEntries (entries : Entries Json) {name : String}
    (ordinary : isReserved name = false) :
    Entries.get? (withoutReservedEntries entries) name =
      (entries.get? name).map withoutReserved := by
  induction entries with
  | nil => rfl
  | cons entry rest inductionHypothesis =>
    rcases entry with ⟨key, value⟩
    unfold withoutReservedEntries
    by_cases same : key = name
    · subst same
      simp [ordinary, Entries.get?]
    · split
      · simp [Entries.get?, same, inductionHypothesis]
      · simp [Entries.get?, same, inductionHypothesis]

/-- The entries under other keys are left, without the reserved keys inside their values. -/
theorem withoutReservedEntries_eq (entries : Entries Json) :
    withoutReservedEntries entries =
      (entries.filter fun entry => !isReserved entry.1).map fun entry =>
        (entry.1, withoutReserved entry.2) := by
  induction entries with
  | nil => rfl
  | cons entry rest inductionHypothesis =>
    rcases entry with ⟨key, value⟩
    unfold withoutReservedEntries
    split
    · next reserved => simp [reserved, inductionHypothesis]
    · next ordinary => simp [ordinary, inductionHypothesis]

theorem names_withoutReservedEntries (entries : Entries Json) :
    Entries.names (withoutReservedEntries entries) =
      entries.names.filter fun name => !isReserved name := by
  rw [withoutReservedEntries_eq, Entries.names, Entries.names, List.map_map, List.filter_map]
  rfl

theorem withoutReservedEntries_append (first second : Entries Json) :
    withoutReservedEntries (first ++ second) =
      withoutReservedEntries first ++ withoutReservedEntries second := by
  simp only [withoutReservedEntries_eq, List.filter_append, List.map_append]

theorem withoutReserved_object (entries : Entries Json) :
    withoutReserved (.object entries) = .object (withoutReservedEntries entries) := by
  rw [withoutReserved]

theorem withoutReserved_list (items : List Json) :
    withoutReserved (.list items) = .list (items.map withoutReserved) := by
  rw [withoutReserved]
  congr 1
  induction items with
  | nil => rfl
  | cons item rest inductionHypothesis =>
    rw [withoutReservedItems, inductionHypothesis, List.map_cons]

/-- Taking out the reserved keys goes through to the value under any other key. -/
theorem field?_withoutReserved (value : Json) {name : String}
    (ordinary : isReserved name = false) :
    (withoutReserved value).field? name = (value.field? name).map withoutReserved := by
  cases value with
  | object entries =>
    rw [withoutReserved_object, field?_object, field?_object,
      get?_withoutReservedEntries entries ordinary]
  | list items => rw [withoutReserved]; rfl
  | _ => rfl

theorem field?_withoutReserved_of_reserved (value : Json) {name : String}
    (reserved : isReserved name = true) : (withoutReserved value).field? name = none := by
  cases value with
  | object entries =>
    rw [withoutReserved_object, field?_object]
    apply Entries.get?_of_absent
    rw [names_withoutReservedEntries]
    simp [reserved]
  | list items =>
    rw [withoutReserved_list]
    rfl
  | _ => rfl

theorem entriesOf_withoutReserved (value : Option Json) :
    entriesOf (value.map withoutReserved) = withoutReservedEntries (entriesOf value) := by
  rcases value with _ | value
  · rfl
  · cases value with
    | object entries =>
      rw [Option.map_some, withoutReserved_object]
      rfl
    | list items =>
      rw [Option.map_some, withoutReserved_list]
      rfl
    | _ => rfl

theorem itemsOf_withoutReserved (value : Option Json) :
    itemsOf (value.map withoutReserved) = (itemsOf value).map withoutReserved := by
  rcases value with _ | value
  · rfl
  · cases value with
    | object entries =>
      rw [Option.map_some, withoutReserved_object]
      rfl
    | list items =>
      rw [Option.map_some, withoutReserved_list]
      rfl
    | _ => rfl

/-! ## Paths of keys -/

/-- The value that a path of keys leads to. -/
def at? (value : Json) (keys : List String) : Option Json :=
  match keys with
  | [] => some value
  | key :: rest => (value.field? key).bind fun inner => inner.at? rest

theorem at?_append (value : Json) (first second : List String) :
    value.at? (first ++ second) = (value.at? first).bind fun inner => inner.at? second := by
  induction first generalizing value with
  | nil => rfl
  | cons key rest inductionHypothesis =>
    rw [List.cons_append, at?, at?, Option.bind_assoc]
    congr 1
    funext inner
    exact inductionHypothesis inner

/-- The sweep goes through to what stands at the end of a path. -/
theorem at?_withoutReserved (value : Json) {keys : List String}
    (ordinary : ∀ key ∈ keys, isReserved key = false) :
    (withoutReserved value).at? keys = (value.at? keys).map withoutReserved := by
  induction keys generalizing value with
  | nil => rfl
  | cons key rest inductionHypothesis =>
    rw [at?, field?_withoutReserved value (ordinary key List.mem_cons_self), at?]
    cases value.field? key with
    | none => rfl
    | some inner =>
      exact inductionHypothesis inner fun other member =>
        ordinary other (List.mem_cons_of_mem key member)

/-- What a path leads to after the sweep, it led to before. -/
theorem at?_of_withoutReserved {value shown : Json} {keys : List String}
    (found : (withoutReserved value).at? keys = some shown) :
    ∃ original, value.at? keys = some original ∧ shown = withoutReserved original := by
  induction keys generalizing value with
  | nil =>
    cases found
    exact ⟨value, rfl, rfl⟩
  | cons key rest inductionHypothesis =>
    obtain ⟨inner, first, others⟩ := Option.bind_eq_some_iff.mp found
    cases reserved : isReserved key with
    | true =>
      rw [field?_withoutReserved_of_reserved value reserved] at first
      cases first
    | false =>
      rw [field?_withoutReserved value reserved] at first
      obtain ⟨source, before, rfl⟩ := Option.map_eq_some_iff.mp first
      obtain ⟨original, reached, same⟩ := inductionHypothesis others
      exact ⟨original, by rw [at?, before, Option.bind_some, reached], same⟩

end Json

namespace Document

/-- What the base has of its own in a document. -/
def own (base : Entries Json) : Entries Json :=
  (base.swapErase "paths").swapErase "components"

/-- What is generated, laid into the base. -/
def generatedParts (version : Version) (base : Entries Json) (assembly : Assembly) :
    Entries Json :=
  [("tags", .list ((sortTags assembly.tags).map Tag.toJson)),
   ("servers", .list (assembly.servers.map Server.toJson)),
   ("paths", renderPaths version (base.get? "paths") assembly.documented),
   ("components", renderComponents version (base.get? "components") assembly.store)]

theorem render_eq (version : Version) (versionText : String) (base : Entries Json)
    (assembly : Assembly) :
    render version versionText base assembly =
      Json.withoutReserved (.object
        (("openapi", .text versionText) :: own base ++ generatedParts version base assembly)) :=
  rfl

/-- A key of a document has what the base has there, or else what is generated. -/
theorem field?_render (version : Version) (versionText : String) (base : Entries Json)
    (assembly : Assembly) {name : String} (ordinary : isReserved name = false)
    (other : name ≠ "openapi") :
    (render version versionText base assembly).field? name =
      (((own base).get? name).or ((generatedParts version base assembly).get? name)).map
        Json.withoutReserved := by
  rw [render_eq, Json.field?_withoutReserved _ ordinary, Json.field?_object]
  simp only [List.cons_append, Entries.get?, Ne.symm other, if_false, Entries.get?_append]

/-- Distinct keys of the base leave its own part without paths and components. -/
theorem get?_own {base : Entries Json} (distinct : base.names.Nodup) {name : String}
    (part : name = "paths" ∨ name = "components") : (own base).get? name = none := by
  obtain ⟨withoutPaths, noPaths⟩ := Entries.nodup_names_swapErase distinct "paths"
  obtain ⟨-, noComponents⟩ := Entries.nodup_names_swapErase withoutPaths "components"
  cases found : (own base).get? name with
  | none => rfl
  | some value =>
    have member := Entries.mem_of_get?_eq_some found
    rcases part with rfl | rfl
    · have before := Entries.mem_of_mem_swapErase member
      exact absurd (Entries.mem_names_of_mem before) noPaths
    · exact absurd (Entries.mem_names_of_mem member) noComponents

end Document
end RouteDocs

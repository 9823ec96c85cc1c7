import RouteDocs.Proofs.Convert.Builtin
import RouteDocs.Proofs.Convert.Regular
import RouteDocs.Proofs.Schema.Rendered

namespace RouteDocs

/-!
# From the later line to the earlier one

What is written in the later line of the format can be said in the words of the
earlier one.  A second type for the missing value becomes a mark, an exclusive
bound becomes a marked bound, and of a list of examples the first one is left.
`Json.earlier` does this wherever a schema stands and nowhere else: a property
that is named like a keyword stays, and so does whatever a fallback, an allowed
value or an example holds.

The two renderings of a regular schema are translated into each other in this
way.  Only the order of the bounds differs.
-/

namespace Json

/-- Two values are alike when they are the same up to the order of keys, at every depth. -/
inductive Alike : Json → Json → Prop where
  | refl (value : Json) : Alike value value
  | list {items others : List Json} (each : List.Forall₂ Alike items others) :
    Alike (.list items) (.list others)
  | object {entries between others : Entries Json} (names : entries.names = between.names)
      (each : List.Forall₂ Alike entries.values between.values) (order : between.Perm others) :
    Alike (.object entries) (.object others)

/-- The entries that say in the earlier line what an entry says in the later one. -/
def respelled (key : String) (value : Json) : List (String × Json) :=
  if key = "type" then
    match value with
    | .list [type, .text "null"] => [("type", type), ("nullable", .bool true)]
    | other => [("type", other)]
  else if key = "exclusiveMinimum" then
    [("minimum", value), ("exclusiveMinimum", .bool true)]
  else if key = "exclusiveMaximum" then
    [("maximum", value), ("exclusiveMaximum", .bool true)]
  else if key = "examples" then
    match value with
    | .list (first :: _) => [("example", first)]
    | other => [("examples", other)]
  else [(key, value)]

mutual

/-- A schema of the later line in the words of the earlier one. -/
def earlier (schema : Json) : Json :=
  match schema with
  | .object entries => .object (earlierEntries entries)
  | other => other

def earlierEntries (entries : List (String × Json)) : List (String × Json) :=
  match entries with
  | [] => []
  | (key, value) :: rest =>
    (if key = "properties" then [(key, earlierProperties value)]
      else if key = "items" ∨ key = "additionalProperties" then [(key, earlier value)]
      else if key = "oneOf" ∨ key = "anyOf" ∨ key = "allOf" then [(key, earlierMembers value)]
      else respelled key value) ++ earlierEntries rest

/-- The schemas of properties, whatever these are named. -/
def earlierProperties (properties : Json) : Json :=
  match properties with
  | .object entries => .object (earlierValues entries)
  | other => other

def earlierValues (entries : List (String × Json)) : List (String × Json) :=
  match entries with
  | [] => []
  | (name, schema) :: rest => (name, earlier schema) :: earlierValues rest

def earlierMembers (members : Json) : Json :=
  match members with
  | .list schemas => .list (earlierItems schemas)
  | other => other

def earlierItems (schemas : List Json) : List Json :=
  match schemas with
  | [] => []
  | schema :: rest => earlier schema :: earlierItems rest

end

/-! ## Entries up to order -/

def AlikeEntries (entries others : Entries Json) : Prop :=
  ∃ between : Entries Json, entries.names = between.names ∧
    List.Forall₂ Alike entries.values between.values ∧ between.Perm others

namespace AlikeEntries

variable {entries others more further : Entries Json}

theorem object (alike : AlikeEntries entries others) :
    Alike (.object entries) (.object others) := by
  obtain ⟨between, names, each, order⟩ := alike
  exact .object names each order

theorem of_perm (order : entries.Perm others) : AlikeEntries entries others :=
  ⟨entries, rfl, List.forall₂_same.mpr fun value _ => .refl value, order⟩

theorem of_eq (same : entries = others) : AlikeEntries entries others :=
  of_perm (same ▸ .refl entries)

theorem single (key : String) {value other : Json} (alike : Alike value other) :
    AlikeEntries [(key, value)] [(key, other)] :=
  ⟨[(key, other)], rfl, .cons alike .nil, .refl _⟩

theorem append (first : AlikeEntries entries others) (second : AlikeEntries more further) :
    AlikeEntries (entries ++ more) (others ++ further) := by
  obtain ⟨between, names, each, order⟩ := first
  obtain ⟨rest, restNames, restEach, restOrder⟩ := second
  refine ⟨between ++ rest, ?_, ?_, order.append restOrder⟩
  · rw [Entries.names_append, Entries.names_append, names, restNames]
  · simp only [Entries.values, List.map_append]
    exact List.rel_append each restEach

end AlikeEntries

/-! ## What is translated and what stays -/

theorem earlierEntries_append (first second : List (String × Json)) :
    earlierEntries (first ++ second) = earlierEntries first ++ earlierEntries second := by
  induction first with
  | nil => rfl
  | cons entry rest inductionHypothesis =>
    rcases entry with ⟨key, value⟩
    rw [List.cons_append, earlierEntries, earlierEntries, inductionHypothesis, List.append_assoc]

theorem earlierItems_eq (schemas : List Json) : earlierItems schemas = schemas.map earlier := by
  induction schemas with
  | nil => rfl
  | cons schema rest inductionHypothesis =>
    rw [earlierItems, inductionHypothesis, List.map_cons]

theorem earlierValues_eq (entries : Entries Json) :
    earlierValues entries = entries.mapValues earlier := by
  induction entries with
  | nil => rfl
  | cons entry rest inductionHypothesis =>
    rcases entry with ⟨name, schema⟩
    rw [earlierValues, inductionHypothesis]
    rfl

/-- The keys under which something is translated. -/
def translated : List String :=
  ["type", "exclusiveMinimum", "exclusiveMaximum", "examples", "properties", "items",
    "additionalProperties", "oneOf", "anyOf", "allOf"]

/-- Under every other key the value stays, whatever it is. -/
theorem earlierEntries_of_plain {entries : List (String × Json)}
    (plain : ∀ entry ∈ entries, entry.1 ∉ translated) : earlierEntries entries = entries := by
  induction entries with
  | nil => rfl
  | cons entry rest inductionHypothesis =>
    rcases entry with ⟨key, value⟩
    obtain ⟨here, others⟩ := List.forall_mem_cons.mp plain
    simp only [translated, List.mem_cons, List.not_mem_nil, or_false, not_or] at here
    obtain ⟨type, minimum, maximum, examples, properties, items, additional, one, any, all⟩ := here
    rw [earlierEntries, inductionHypothesis others]
    simp [respelled, *]

theorem ofOptional_append (first second : List (String × Option Json)) :
    ofOptional (first ++ second) = ofOptional first ++ ofOptional second :=
  List.filterMap_append

theorem alike_of_plain {entries : List (String × Option Json)}
    (plain : ∀ key ∈ entries.map Prod.fst, key ∉ translated) :
    AlikeEntries (ofOptional entries) (earlierEntries (ofOptional entries)) :=
  .of_eq (earlierEntries_of_plain fun entry member =>
    plain entry.1 ((names_ofOptional entries).subset (List.mem_map_of_mem member))).symm

end Json

namespace Facets

variable {facets : Facets}

/-- A nullable type is a marked type. -/
theorem alike_type (typed : facets.nullable = true → facets.type ≠ none) :
    Json.AlikeEntries (Json.ofOptional (facets.typeEntries .v30))
      (Json.earlierEntries (Json.ofOptional (facets.typeEntries .v31))) := by
  apply Json.AlikeEntries.of_eq
  cases nullable : facets.nullable with
  | true =>
    obtain ⟨type, found⟩ := Option.ne_none_iff_exists'.mp (typed nullable)
    simp [typeEntries, Json.ofOptional, Json.earlierEntries, Json.respelled, nullable, found]
  | false =>
    cases found : facets.type <;>
      simp [typeEntries, Json.ofOptional, Json.earlierEntries, Json.respelled, nullable, found]

/-- Of several examples the first one is shown. -/
theorem alike_examples :
    Json.AlikeEntries (Json.ofOptional (facets.exampleEntries .v30))
      (Json.earlierEntries (Json.ofOptional (facets.exampleEntries .v31))) := by
  apply Json.AlikeEntries.of_eq
  cases found : facets.examples <;>
    simp [exampleEntries, Json.ofOptional, Json.earlierEntries, Json.respelled, found]

/-- One side of a number: an exclusive bound is a marked bound, when there is no
inclusive one beside it. -/
theorem entries_bound {inclusive exclusive : String}
    (side : (inclusive, exclusive) = ("minimum", "exclusiveMinimum") ∨
      (inclusive, exclusive) = ("maximum", "exclusiveMaximum"))
    {bound strict : Option Float} (apart : bound = none ∨ strict = none) :
    Json.ofOptional [(inclusive, (strict.or bound).map Json.ofNumber),
        (exclusive, strict.map fun _ => .bool true)] =
      Json.ofOptional [(inclusive, bound.map Json.ofNumber)] ++
        Json.earlierEntries (Json.ofOptional [(exclusive, strict.map Json.ofNumber)]) := by
  rcases side with same | same <;> cases same <;> rcases apart with rfl | rfl
  · cases strict <;> simp [Json.ofOptional, Json.earlierEntries, Json.respelled]
  · cases bound <;> simp [Json.ofOptional, Json.earlierEntries]
  · cases strict <;> simp [Json.ofOptional, Json.earlierEntries, Json.respelled]
  · cases bound <;> simp [Json.ofOptional, Json.earlierEntries]

theorem alike_bounds (lower : facets.minimum = none ∨ facets.exclusiveMinimum = none)
    (upper : facets.maximum = none ∨ facets.exclusiveMaximum = none) :
    Json.AlikeEntries (Json.ofOptional (facets.boundEntries .v30))
      (Json.earlierEntries (Json.ofOptional (facets.boundEntries .v31))) := by
  let least := Json.ofOptional [("minimum", facets.minimum.map Json.ofNumber)]
  let greatest := Json.ofOptional [("maximum", facets.maximum.map Json.ofNumber)]
  let above := Json.earlierEntries
    (Json.ofOptional [("exclusiveMinimum", facets.exclusiveMinimum.map Json.ofNumber)])
  let below := Json.earlierEntries
    (Json.ofOptional [("exclusiveMaximum", facets.exclusiveMaximum.map Json.ofNumber)])
  have earlier : Json.ofOptional (facets.boundEntries .v30) =
      least ++ (above ++ (greatest ++ below)) := by
    calc
      Json.ofOptional (facets.boundEntries .v30) = _ ++ _ := Json.ofOptional_append [_, _] [_, _]
      _ = (least ++ above) ++ (greatest ++ below) :=
        congrArg₂ _ (entries_bound (.inl rfl) lower) (entries_bound (.inr rfl) upper)
      _ = least ++ (above ++ (greatest ++ below)) := List.append_assoc _ _ _
  have later : Json.earlierEntries (Json.ofOptional (facets.boundEntries .v31)) =
      least ++ (greatest ++ (above ++ below)) := by
    simp only [boundEntries, Version.numericExclusiveBounds_v31, if_true, least, greatest, above,
      below]
    cases facets.minimum <;> cases facets.maximum <;> cases facets.exclusiveMinimum <;>
      cases facets.exclusiveMaximum <;>
      simp [Json.ofOptional, Json.earlierEntries, Json.respelled]
  -- In the earlier line the marked lower bound stands before the upper ones.
  rw [earlier, later]
  exact .of_perm ((List.perm_append_comm_assoc above greatest below).append_left least)

theorem alike_value (lower : facets.minimum = none ∨ facets.exclusiveMinimum = none)
    (upper : facets.maximum = none ∨ facets.exclusiveMaximum = none) :
    Json.AlikeEntries (Json.ofOptional (facets.valueEntries .v30))
      (Json.earlierEntries (Json.ofOptional (facets.valueEntries .v31))) := by
  simp only [valueEntries, Json.ofOptional_append, Json.earlierEntries_append]
  refine (Json.alike_of_plain ?_).append (alike_bounds lower upper)
  simp only [List.map_cons, List.map_nil]
  decide

/-- Counts and lists of names are written in one way. -/
theorem alike_counts {entries : List (String × Option Json)}
    (listed : entries ∈ [facets.itemEntries, facets.requiredEntries, facets.propertyEntries]) :
    Json.AlikeEntries (Json.ofOptional entries)
      (Json.earlierEntries (Json.ofOptional entries)) := by
  apply Json.alike_of_plain
  simp only [List.mem_cons, List.not_mem_nil, or_false] at listed
  rcases listed with rfl | rfl | rfl <;>
    simp only [itemEntries, requiredEntries, propertyEntries, List.map_cons, List.map_nil] <;>
    decide

end Facets

namespace SchemaObject

variable {object : SchemaObject} {schemas : List Schema}

theorem mem_parts {part : Schema} :
    part ∈ object.parts ↔ (∃ property ∈ object.properties, property.2 = part) ∨
      object.items = some part ∨ object.further? = some part ∨ part ∈ object.oneOf ∨
        part ∈ object.anyOf ∨ part ∈ object.allOf := by
  simp only [parts, List.mem_append, List.mem_map, Option.mem_toList, or_assoc]

theorem forall₂_render
    (each : ∀ schema ∈ schemas, (schema.render .v30).Alike (schema.render .v31).earlier) :
    List.Forall₂ Json.Alike (schemas.map (Schema.render .v30))
      ((schemas.map (Schema.render .v31)).map Json.earlier) := by
  rw [List.map_map, List.forall₂_map_left_iff, List.forall₂_map_right_iff]
  exact List.forall₂_same.mpr each

theorem alike_alternatives {key : String} (list : key = "oneOf" ∨ key = "anyOf" ∨ key = "allOf")
    (each : ∀ schema ∈ schemas, (schema.render .v30).Alike (schema.render .v31).earlier) :
    Json.AlikeEntries (Json.ofOptional [alternatives key (schemas.map (Schema.render .v30))])
      (Json.earlierEntries
        (Json.ofOptional [alternatives key (schemas.map (Schema.render .v31))])) := by
  cases schemas with
  | nil => exact .of_eq rfl
  | cons schema rest =>
    have translated : Json.earlierEntries (Json.ofOptional
        [alternatives key ((schema :: rest).map (Schema.render .v31))]) =
        [(key, .list (((schema :: rest).map (Schema.render .v31)).map Json.earlier))] := by
      rcases list with rfl | rfl | rfl <;>
        simp [alternatives, Json.ofOptional, Json.earlierEntries, Json.earlierMembers,
          Json.earlierItems_eq]
    rw [translated]
    exact .single key (.list (forall₂_render each))

theorem alike_items (object : SchemaObject) (each : ∀ schema ∈ object.items,
      (schema.render .v30).Alike (schema.render .v31).earlier) :
    Json.AlikeEntries (Json.ofOptional [("items", object.items.map (Schema.render .v30))])
      (Json.earlierEntries
        (Json.ofOptional [("items", object.items.map (Schema.render .v31))])) := by
  cases items : object.items with
  | none => exact .of_eq rfl
  | some schema =>
    have translated : Json.earlierEntries (Json.ofOptional [("items", some (schema.render .v31))]) =
        [("items", (schema.render .v31).earlier)] := by
      simp [Json.ofOptional, Json.earlierEntries]
    rw [Option.map_some, Option.map_some, translated]
    exact .single "items" (each schema items)

theorem alike_additional (object : SchemaObject) (each : ∀ schema ∈ object.further?,
      (schema.render .v30).Alike (schema.render .v31).earlier) :
    Json.AlikeEntries
      (Json.ofOptional [("additionalProperties", Schema.renderAdditional .v30 object.additional)])
      (Json.earlierEntries (Json.ofOptional
        [("additionalProperties", Schema.renderAdditional .v31 object.additional)])) := by
  have translated : ∀ value, Json.earlierEntries
      (Json.ofOptional [("additionalProperties", some value)]) =
        [("additionalProperties", value.earlier)] := by
    intro value
    simp [Json.ofOptional, Json.earlierEntries]
  rcases additional : object.additional with _ | (flag | schema)
  · exact .of_eq rfl
  · rw [Schema.renderAdditional, Schema.renderAdditional, translated]
    exact .of_eq rfl
  · rw [Schema.renderAdditional, Schema.renderAdditional, translated]
    exact .single _ (each schema (by rw [further?, additional]; rfl))

theorem alike_properties (object : SchemaObject) (each : ∀ property ∈ object.properties,
      (property.2.render .v30).Alike (property.2.render .v31).earlier) :
    Json.AlikeEntries
      (Json.ofOptional [("properties", if object.properties.isEmpty then none
        else some (.object (object.properties.map fun property =>
          (property.1, property.2.render .v30))))])
      (Json.earlierEntries (Json.ofOptional
        [("properties", if object.properties.isEmpty then none
          else some (.object (object.properties.map fun property =>
            (property.1, property.2.render .v31))))])) := by
  cases object.properties.isEmpty with
  | true => exact .of_eq rfl
  | false =>
    let later : Entries Json := object.properties.map fun property =>
      (property.1, property.2.render .v31)
    have translated : Json.earlierEntries (Json.ofOptional [("properties", some (.object later))]) =
        [("properties", .object (later.mapValues Json.earlier))] := by
      simp [Json.ofOptional, Json.earlierEntries, Json.earlierProperties, Json.earlierValues_eq]
    refine translated ▸ .single "properties" (.object ?_ ?_ (.refl _))
    · simp [Entries.names, Entries.mapValues, later, Function.comp_def]
    · simp only [Entries.values, Entries.mapValues, later, List.map_map]
      rw [List.forall₂_map_left_iff, List.forall₂_map_right_iff]
      exact List.forall₂_same.mpr each

/-- Objects with parts that are translated are translated. -/
theorem alike_render (regular : object.Regular)
    (typed : object.nullable = true → object.type ≠ none)
    (parts : ∀ part ∈ object.parts, (part.render .v30).Alike (part.render .v31).earlier) :
    (object.render .v30).Alike (object.render .v31).earlier := by
  rw [render_eq, render_eq, Json.earlier]
  apply Json.AlikeEntries.object
  have items := object.alike_items fun schema found =>
    parts schema (mem_parts.mpr (.inr (.inl found)))
  have properties := object.alike_properties fun property listed =>
    parts property.2 (mem_parts.mpr (.inl ⟨property, listed, rfl⟩))
  have additional := object.alike_additional fun schema found =>
    parts schema (mem_parts.mpr (.inr (.inr (.inl found))))
  have oneOf := alike_alternatives (.inl rfl) fun schema listed =>
    parts schema (mem_parts.mpr (.inr (.inr (.inr (.inl listed)))))
  have anyOf := alike_alternatives (.inr (.inl rfl)) fun schema listed =>
    parts schema (mem_parts.mpr (.inr (.inr (.inr (.inr (.inl listed))))))
  have allOf := alike_alternatives (.inr (.inr rfl)) fun schema listed =>
    parts schema (mem_parts.mpr (.inr (.inr (.inr (.inr (.inr listed))))))
  have counts := @Facets.alike_counts object.toFacets
  have three : ∀ first second third : String × Option Json,
      [first, second, third] = [first] ++ [second] ++ [third] := fun _ _ _ => rfl
  -- From here on the keys are compared group by group, in the order in which they are written.
  simp only [entries, three, Json.ofOptional_append, Json.earlierEntries_append]
  exact (Facets.alike_type typed)
    |>.append (Facets.alike_value regular.lower regular.upper)
    |>.append items |>.append (counts (by simp))
    |>.append properties |>.append (counts (by simp))
    |>.append additional |>.append (counts (by simp))
    |>.append ((oneOf.append anyOf).append allOf)
    |>.append Facets.alike_examples

end SchemaObject

/-- A regular schema whose nullable objects have a type is translated, at every depth. -/
theorem Schema.alike_render {schema : Schema}
    (regular : schema.Everywhere SchemaObject.Regular)
    (typed : schema.Everywhere fun object => object.nullable = true → object.type ≠ none) :
    (schema.render .v30).Alike (schema.render .v31).earlier := by
  induction schema with
  | ref name => exact absurd regular not_everywhere_ref
  | inline object inductionHypothesis =>
    obtain ⟨regularHere, regularParts⟩ := everywhere_inline.mp regular
    obtain ⟨typedHere, typedParts⟩ := everywhere_inline.mp typed
    rw [render_inline, render_inline]
    exact SchemaObject.alike_render regularHere typedHere fun part member =>
      inductionHypothesis part member (regularParts part member) (typedParts part member)

namespace MapperTable

/-- The two renderings of a converted rule carry the same information.  When
everything nullable in it has a type, the later rendering in the words of the
earlier line is the earlier rendering, up to the order of keys. -/
theorem renderings_are_translated {rule : Rule} {defaults : Notes} {scope : Scope}
    {fragment : Fragment}
    (converted : builtin.convert rule defaults scope = .ok (some fragment))
    (typed : fragment.schema.Everywhere fun object =>
      object.nullable = true → object.type ≠ none) :
    (fragment.schema.render .v30).Alike (fragment.schema.render .v31).earlier :=
  Schema.alike_render (convert_everywhere SchemaObject.regular_shapes
    hasOwnOnly_builtin.callersSatisfy converted) typed

/-- A positive number that may be missing. -/
theorem renderings_are_translated_positive :
    ∃ fragment, builtin.convert { kind := .number { positive := true }, nullable := true } {} {} =
        .ok (some fragment) ∧
      fragment.schema.Everywhere (fun object => object.nullable = true → object.type ≠ none) ∧
      (fragment.schema.render .v30).Alike (fragment.schema.render .v31).earlier := by
  let rule : Rule := { kind := .number { positive := true }, nullable := true }
  have converted : builtin.convert rule {} {} =
      .ok (some (rule.finish {} (NumberLimits.schema { positive := true }))) := by
    rw [convert_builtin, Rule.fragment?_eq]
    rfl
  have typed : (rule.finish {} (NumberLimits.schema { positive := true })).schema.Everywhere
      fun object => object.nullable = true → object.type ≠ none :=
    Schema.everywhere_of_parts_nil (fun _ => Option.some_ne_none _) rfl
  exact ⟨_, converted, typed, renderings_are_translated converted typed⟩

end MapperTable

/-- A property named like a keyword stays, and so does what a fallback holds. -/
example :
    (Json.object
      [("properties", .object [("examples", .object
        [("type", .list [.text "string", .text "null"]),
         ("default", .object [("exclusiveMinimum", .integer 1)])])])]).earlier =
    .object
      [("properties", .object [("examples", .object
        [("type", .text "string"), ("nullable", .bool true),
         ("default", .object [("exclusiveMinimum", .integer 1)])])])] := by
  rfl
end RouteDocs

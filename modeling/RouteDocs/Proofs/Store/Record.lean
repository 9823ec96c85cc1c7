import RouteDocs.Proofs.Entries
import RouteDocs.Store.Basic

namespace RouteDocs

/-!
# A store as the record of its registrations

Whatever is done to a store while an operation is built, it is a sequence of
registrations: a name and the object stored under it.  `record` replays such a
sequence.  A replay never loses a name.  It may replace an object, and then it
notes a collision for the name; `record_keeps` is this balance, from which the
whole theory of lost components follows.
-/

/-- Objects in the order in which they are stored, with their names.  A name
may occur more than once. -/
abbrev Registrations : Type := List (String × SchemaObject)

namespace Store

def record (store : Store) (registrations : Registrations) : Store :=
  registrations.foldl (fun filled entry => filled.insert entry.1 entry.2) store

@[simp] theorem record_nil (store : Store) : store.record [] = store := rfl

@[simp] theorem record_cons (store : Store) (entry : String × SchemaObject)
    (rest : Registrations) :
    store.record (entry :: rest) = (store.insert entry.1 entry.2).record rest := rfl

@[simp] theorem record_append (store : Store) (first second : Registrations) :
    store.record (first ++ second) = (store.record first).record second := by
  simp only [record, List.foldl_append]

theorem absorb_eq_record (store other : Store) :
    store.absorb other =
      { store with warnings := store.warnings ++ other.warnings }.record other.components := rfl

theorem get?_insert (store : Store) (name other : String) (object : SchemaObject) :
    (store.insert name object).get? other =
      if other = name then some object else store.get? other :=
  Entries.get?_put store.components name other object

theorem mem_names_iff {store : Store} {name : String} :
    name ∈ store.names ↔ ∃ object, store.get? name = some object :=
  Entries.mem_names_iff

/-- A replay lays the registrations over what is there. -/
theorem components_record (store : Store) (registrations : Registrations) :
    (store.record registrations).components = store.components.overlay registrations := by
  induction registrations generalizing store with
  | nil => rfl
  | cons entry rest inductionHypothesis => exact inductionHypothesis (store.insert entry.1 entry.2)

theorem mem_names_record {store : Store} {registrations : Registrations} {name : String} :
    name ∈ (store.record registrations).names ↔
      name ∈ store.names ∨ name ∈ Entries.names registrations := by
  rw [names, components_record]
  exact Entries.mem_names_overlay

/-- Every component of a replay was registered or was there before. -/
theorem mem_components_record {store : Store} {registrations : Registrations}
    {entry : String × SchemaObject} (member : entry ∈ (store.record registrations).components) :
    entry ∈ registrations ∨ entry ∈ store.components := by
  rw [components_record] at member
  exact Entries.mem_overlay member

end Store

/-! ## Warnings of a replay -/

/-- The entries that find their name taken when they are stored one by one. -/
def Entries.colliding (entries : Entries SchemaObject) (registrations : Registrations) :
    Registrations :=
  match registrations with
  | [] => []
  | entry :: rest =>
    if entries.has entry.1 then entry :: colliding (entries.put entry.1 entry.2) rest
    else colliding (entries.put entry.1 entry.2) rest

namespace Store

/-- A replay notes one collision for each of these entries, in order. -/
theorem warnings_record (store : Store) (registrations : Registrations) :
    (store.record registrations).warnings = store.warnings ++
      (store.components.colliding registrations).map fun entry =>
        .componentCollision entry.1 := by
  induction registrations generalizing store with
  | nil => simp [Entries.colliding]
  | cons entry rest inductionHypothesis =>
    rw [record_cons, inductionHypothesis, Entries.colliding]
    simp only [insert]
    split
    · rw [List.map_cons, List.append_assoc, List.singleton_append]
    · rfl

theorem warnings_subset_insert (store : Store) (name : String) (object : SchemaObject) :
    store.warnings ⊆ (store.insert name object).warnings := by
  intro warning noted
  simp only [insert]
  split
  · exact List.mem_append_left _ noted
  · exact noted

theorem warnings_subset_record (store : Store) (registrations : Registrations) :
    store.warnings ⊆ (store.record registrations).warnings := by
  rw [warnings_record]
  exact List.subset_append_left _ _

theorem collision_of_mem_warnings_record {store : Store} {registrations : Registrations}
    {warning : Warning} (noted : warning ∈ (store.record registrations).warnings) :
    warning ∈ store.warnings ∨ ∃ name, warning = .componentCollision name := by
  rw [warnings_record] at noted
  rcases List.mem_append.mp noted with known | new
  · exact Or.inl known
  · obtain ⟨entry, -, rfl⟩ := List.mem_map.mp new
    exact Or.inr ⟨entry.1, rfl⟩

/-! ## Replays without a collision

A replay that finds no name taken only adds, so afterwards every registration
can be read and nothing of the store has changed. -/

end Store

/-- Every entry finds its name taken when all names are there. -/
theorem Entries.colliding_of_present {entries : Entries SchemaObject}
    {registrations : Registrations}
    (present : ∀ name ∈ names registrations, name ∈ entries.names) :
    entries.colliding registrations = registrations := by
  induction registrations generalizing entries with
  | nil => rfl
  | cons entry rest inductionHypothesis =>
    rcases List.forall_mem_cons.mp present with ⟨here, later⟩
    rw [colliding, if_pos (has_eq_true_iff.mpr here), inductionHypothesis]
    exact fun name member => mem_names_put.mpr (Or.inr (later name member))

/-- No entry finds its name taken when all names are new and distinct. -/
theorem Entries.colliding_eq_nil_iff {entries : Entries SchemaObject}
    {registrations : Registrations} :
    entries.colliding registrations = [] ↔
      (names registrations).Nodup ∧ ∀ name ∈ names registrations, name ∉ entries.names := by
  induction registrations generalizing entries with
  | nil => simp [colliding]
  | cons entry rest inductionHypothesis =>
    have present : ∀ name, name ∈ (entries.put entry.1 entry.2).names ↔
        name = entry.1 ∨ name ∈ entries.names := fun name => mem_names_put
    rw [colliding]
    by_cases taken : entry.1 ∈ entries.names
    · rw [if_pos (has_eq_true_iff.mpr taken)]
      constructor
      · intro impossible
        cases impossible
      · rintro ⟨_, fresh⟩
        exact absurd taken (fresh entry.1 List.mem_cons_self)
    · rw [if_neg (mt has_eq_true_iff.mp taken), inductionHypothesis]
      simp only [names_cons, List.nodup_cons, List.mem_cons, forall_eq_or_imp, present, not_or]
      constructor
      · rintro ⟨distinct, fresh⟩
        exact ⟨⟨fun member => (fresh entry.1 member).1 rfl, distinct⟩, taken,
          fun name member => (fresh name member).2⟩
      · rintro ⟨⟨apart, distinct⟩, _, fresh⟩
        exact ⟨distinct, fun name member => ⟨fun same => apart (same ▸ member), fresh name member⟩⟩

/-- Of entries with different names only those collide that find their name in the store. -/
theorem Entries.mem_colliding_of_nodup {entries : Entries SchemaObject}
    {registrations : Registrations} (distinct : (names registrations).Nodup)
    {entry : String × SchemaObject} (collides : entry ∈ entries.colliding registrations) :
    entry ∈ registrations ∧ entry.1 ∈ entries.names := by
  induction registrations generalizing entries with
  | nil => cases collides
  | cons first rest inductionHypothesis =>
    rcases List.nodup_cons.mp distinct with ⟨apart, others⟩
    have later : entry ∈ (entries.put first.1 first.2).colliding rest →
        entry ∈ first :: rest ∧ entry.1 ∈ entries.names := by
      intro after
      rcases inductionHypothesis others after with ⟨member, taken⟩
      refine ⟨List.mem_cons_of_mem _ member, ?_⟩
      rcases mem_names_put.mp taken with same | before
      · exact absurd (List.mem_map_of_mem member) (same ▸ apart)
      · exact before
    rw [colliding] at collides
    split at collides
    · next taken =>
      rcases List.mem_cons.mp collides with rfl | after
      · exact ⟨List.mem_cons_self, has_eq_true_iff.mp taken⟩
      · exact later after
    · exact later collides

namespace Store

theorem warnings_record_eq_self_iff {store : Store} {registrations : Registrations} :
    (store.record registrations).warnings = store.warnings ↔
      (Entries.names registrations).Nodup ∧
        ∀ name ∈ Entries.names registrations, name ∉ store.names := by
  rw [warnings_record, List.append_right_eq_self, List.map_eq_nil_iff]
  exact Entries.colliding_eq_nil_iff

theorem components_record_of_silent {store : Store} {registrations : Registrations}
    (silent : (store.record registrations).warnings = store.warnings) :
    (store.record registrations).components = store.components ++ registrations := by
  rcases warnings_record_eq_self_iff.mp silent with ⟨distinct, fresh⟩
  rw [components_record, Entries.overlay_eq_append distinct fresh]

theorem get?_record_of_registered {store : Store} {registrations : Registrations}
    (silent : (store.record registrations).warnings = store.warnings) {name : String}
    {object : SchemaObject} (registered : (name, object) ∈ registrations) :
    (store.record registrations).get? name = some object := by
  rcases warnings_record_eq_self_iff.mp silent with ⟨distinct, fresh⟩
  have absent : store.components.get? name = none :=
    Entries.get?_of_absent (fresh name (Entries.mem_names_of_mem registered))
  rw [get?, components_record_of_silent silent, Entries.get?_append, absent, Option.none_or,
    Entries.get?_of_mem distinct registered]

/-! ## Nothing is lost silently -/

/-- A store keeps an object under a name: it holds exactly this object there,
or it has noted that the name was stored twice. -/
def Keeps (store : Store) (name : String) (object : SchemaObject) : Prop :=
  store.get? name = some object ∨ .componentCollision name ∈ store.warnings

theorem keeps_insert_self (store : Store) (name : String) (object : SchemaObject) :
    (store.insert name object).Keeps name object := by
  left
  rw [get?_insert, if_pos rfl]

/-- A kept object stays kept when something else is stored.  Where it is
replaced, its name is present, so the collision is noted. -/
theorem Keeps.insert {store : Store} {name : String} {object : SchemaObject}
    (kept : store.Keeps name object) (other : String) (replacement : SchemaObject) :
    (store.insert other replacement).Keeps name object := by
  rcases kept with held | noted
  · by_cases same : name = other
    · right
      have taken : store.components.has other = true := by
        rw [Entries.has_eq_true_iff, Entries.mem_names_iff]
        exact ⟨object, same ▸ held⟩
      simp only [Store.insert, taken, if_true, same]
      exact List.mem_append_right _ (List.mem_singleton.mpr rfl)
    · left
      rw [get?_insert, if_neg same]
      exact held
  · exact Or.inr (store.warnings_subset_insert other replacement noted)

theorem Keeps.record {store : Store} {name : String} {object : SchemaObject}
    (kept : store.Keeps name object) (registrations : Registrations) :
    (store.record registrations).Keeps name object := by
  induction registrations generalizing store with
  | nil => exact kept
  | cons entry rest inductionHypothesis =>
    exact inductionHypothesis (kept.insert entry.1 entry.2)

theorem record_keeps (store : Store) {registrations : Registrations} {name : String}
    {object : SchemaObject} (registered : (name, object) ∈ registrations) :
    (store.record registrations).Keeps name object := by
  induction registrations generalizing store with
  | nil => cases registered
  | cons entry rest inductionHypothesis =>
    rcases List.mem_cons.mp registered with same | later
    · cases same
      exact (store.keeps_insert_self name object).record rest
    · exact inductionHypothesis _ later

/-- Two different objects of one name cannot both be kept without a collision. -/
theorem Keeps.eq_or_collision {store : Store} {name : String} {first second : SchemaObject}
    (keptFirst : store.Keeps name first) (keptSecond : store.Keeps name second) :
    first = second ∨ .componentCollision name ∈ store.warnings := by
  rcases keptFirst with heldFirst | noted
  · rcases keptSecond with heldSecond | noted
    · exact Or.inl (Option.some.inj (heldFirst.symm.trans heldSecond))
    · exact Or.inr noted
  · exact Or.inr noted

end Store
end RouteDocs

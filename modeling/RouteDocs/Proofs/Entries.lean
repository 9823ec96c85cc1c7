import Mathlib.Data.List.Induction
import Mathlib.Data.List.Nodup
import RouteDocs.Entries

namespace RouteDocs
namespace Entries

/-!
# What a table holds after storing

`put` changes the value of one name and adds at most that name.  An overlay is
a sequence of such steps, so its value for a name comes from the upper entries
or, where these have none, from the table below.
-/

variable {α : Type}

theorem get?_put (entries : Entries α) (name other : String) (value : α) :
    (entries.put name value).get? other =
      if other = name then some value else entries.get? other := by
  by_cases same : other = name
  · rw [if_pos same, same, get?_put_self]
  · rw [if_neg same, get?_put_of_ne entries value same]

theorem mem_names_iff {entries : Entries α} {name : String} :
    name ∈ entries.names ↔ ∃ value, entries.get? name = some value := by
  induction entries with
  | nil => simp [get?]
  | cons entry rest inductionHypothesis =>
    by_cases same : entry.1 = name
    · simp [get?, same]
    · simp [get?, same, Ne.symm same, inductionHypothesis]

theorem get?_of_absent {entries : Entries α} {name : String} (absent : name ∉ entries.names) :
    entries.get? name = none := by
  rw [mem_names_iff, not_exists] at absent
  exact Option.eq_none_iff_forall_ne_some.mpr absent

theorem has_eq_true_iff {entries : Entries α} {name : String} :
    entries.has name = true ↔ name ∈ entries.names := by
  rw [has, Option.isSome_iff_exists, mem_names_iff]

theorem get?_eq_none_iff {entries : Entries α} {name : String} :
    entries.get? name = none ↔ entries.has name = false := by
  rw [has, Option.isSome_eq_false_iff, Option.isNone_iff_eq_none]

theorem mem_names_of_mem {entries : Entries α} {name : String} {value : α}
    (member : (name, value) ∈ entries) : name ∈ entries.names :=
  List.mem_map.mpr ⟨(name, value), member, rfl⟩

theorem get?_append (first second : Entries α) (name : String) :
    get? (first ++ second) name = (first.get? name).or (second.get? name) := by
  induction first with
  | nil => rfl
  | cons entry rest inductionHypothesis =>
    by_cases same : entry.1 = name
    · simp [get?, same]
    · simp [get?, same, inductionHypothesis]

theorem names_append (first second : Entries α) :
    names (first ++ second) = first.names ++ second.names :=
  List.map_append

/-- Where names are distinct, every entry is the one that is read under its name. -/
theorem get?_of_mem {entries : Entries α} (distinct : entries.names.Nodup) {name : String}
    {value : α} (member : (name, value) ∈ entries) : entries.get? name = some value := by
  induction entries with
  | nil => cases member
  | cons entry rest inductionHypothesis =>
    rcases List.nodup_cons.mp distinct with ⟨apart, distinctRest⟩
    rcases List.mem_cons.mp member with rfl | later
    · rw [get?, if_pos rfl]
    · have different : entry.1 ≠ name := by
        rintro rfl
        exact apart (mem_names_of_mem later)
      rw [get?, if_neg different]
      exact inductionHypothesis distinctRest later

theorem get?_eq_some_iff {entries : Entries α} (distinct : entries.names.Nodup) {name : String}
    {value : α} : entries.get? name = some value ↔ (name, value) ∈ entries :=
  ⟨mem_of_get?_eq_some, get?_of_mem distinct⟩

/-- Where names are distinct, the order of the entries does not count for reading. -/
theorem get?_of_perm {entries others : Entries α} (distinct : entries.names.Nodup)
    (perm : entries.Perm others) (name : String) : entries.get? name = others.get? name := by
  have distinctOthers : others.names.Nodup := (perm.map Prod.fst).nodup distinct
  apply Option.ext
  intro value
  rw [get?_eq_some_iff distinct, get?_eq_some_iff distinctOthers, perm.mem_iff]

theorem mem_names_put {entries : Entries α} {name other : String} {value : α} :
    other ∈ (entries.put name value).names ↔ other = name ∨ other ∈ entries.names := by
  simp only [mem_names_iff, get?_put]
  by_cases same : other = name <;> simp [same]

theorem mem_put {entries : Entries α} {name : String} {value : α} {entry : String × α}
    (member : entry ∈ entries.put name value) : entry = (name, value) ∨ entry ∈ entries := by
  induction entries with
  | nil => exact Or.inl (List.mem_singleton.mp member)
  | cons first rest inductionHypothesis =>
    unfold put at member
    split at member
    · next same =>
      rcases List.mem_cons.mp member with found | later
      · exact Or.inl (by rw [found, same])
      · exact Or.inr (List.mem_cons_of_mem _ later)
    · rcases List.mem_cons.mp member with found | later
      · exact Or.inr (by rw [found]; exact List.mem_cons_self)
      · rcases inductionHypothesis later with found | known
        · exact Or.inl found
        · exact Or.inr (List.mem_cons_of_mem _ known)

/-- A value of an overlay is one of the upper values, or was there below. -/
theorem mem_or_get?_of_get?_overlay {lower higher : Entries α} {name : String} {value : α}
    (found : (lower.overlay higher).get? name = some value) :
    (name, value) ∈ higher ∨ lower.get? name = some value := by
  induction higher generalizing lower with
  | nil => exact Or.inr found
  | cons entry rest inductionHypothesis =>
    rcases inductionHypothesis found with later | earlier
    · exact Or.inl (List.mem_cons_of_mem _ later)
    · rw [get?_put] at earlier
      split at earlier
      · next same =>
        cases earlier
        rw [same]
        exact Or.inl List.mem_cons_self
      · exact Or.inr earlier

theorem get?_overlay_congr {lower other : Entries α} {name : String}
    (same : lower.get? name = other.get? name) (higher : Entries α) :
    (lower.overlay higher).get? name = (other.overlay higher).get? name := by
  induction higher generalizing lower other with
  | nil => exact same
  | cons entry rest inductionHypothesis =>
    exact inductionHypothesis (by rw [get?_put, get?_put, same])

theorem get?_overlay_of_absent (lower : Entries α) {higher : Entries α} {name : String}
    (absent : ∀ entry ∈ higher, entry.1 ≠ name) :
    (lower.overlay higher).get? name = lower.get? name := by
  induction higher generalizing lower with
  | nil => rfl
  | cons entry rest inductionHypothesis =>
    obtain ⟨different, others⟩ := List.forall_mem_cons.mp absent
    exact (inductionHypothesis _ others).trans (get?_put_of_ne _ _ (Ne.symm different))

theorem mem_overlay {lower higher : Entries α} {entry : String × α}
    (member : entry ∈ lower.overlay higher) : entry ∈ higher ∨ entry ∈ lower := by
  induction higher generalizing lower with
  | nil => exact Or.inr member
  | cons first rest inductionHypothesis =>
    rcases inductionHypothesis member with later | earlier
    · exact Or.inl (List.mem_cons_of_mem _ later)
    · rcases mem_put earlier with found | known
      · exact Or.inl (by rw [found]; exact List.mem_cons_self)
      · exact Or.inr known

theorem get?_filter_of_get? {entries : Entries α} {keep : String × α → Bool} {name : String}
    {value : α} (found : entries.get? name = some value) (kept : keep (name, value) = true) :
    get? (entries.filter keep) name = some value := by
  induction entries with
  | nil => cases found
  | cons entry rest inductionHypothesis =>
    rcases entry with ⟨key, own⟩
    by_cases same : key = name
    · subst same
      simp only [get?, if_true, Option.some.injEq] at found
      subst found
      simp only [List.filter_cons_of_pos kept, get?, if_true]
    · simp only [get?, same, if_false] at found
      cases retained : keep (key, own) with
      | true =>
        simp only [List.filter_cons_of_pos retained, get?, same, if_false]
        exact inductionHypothesis found
      | false =>
        rw [List.filter_cons_of_neg (by simp only [retained, Bool.false_eq_true, not_false_iff])]
        exact inductionHypothesis found

theorem get?_mapValues {β : Type} (entries : Entries α) (function : α → β) (name : String) :
    (entries.mapValues function).get? name = (entries.get? name).map function := by
  induction entries with
  | nil => rfl
  | cons entry rest inductionHypothesis =>
    rcases entry with ⟨key, value⟩
    by_cases same : key = name
    · simp [mapValues, get?, same]
    · simp only [mapValues, List.map_cons, get?, same, if_false]
      exact inductionHypothesis

theorem get?_map_of_mem {names : List String} {name : String} (member : name ∈ names)
    (value : α) : get? (names.map fun key => (key, value)) name = some value := by
  induction names with
  | nil => cases member
  | cons first rest inductionHypothesis =>
    rw [List.map_cons, get?]
    split
    · rfl
    · next different =>
      rcases List.mem_cons.mp member with same | later
      · exact absurd same.symm different
      · exact inductionHypothesis later

/-! ## Filtered entries -/

theorem nodup_names_filter {entries : Entries α} (distinct : entries.names.Nodup)
    (keep : String × α → Bool) : (names (entries.filter keep)).Nodup :=
  distinct.sublist (List.filter_sublist.map Prod.fst)

/-- An entry that is filtered out leaves its name without a value, when names are distinct. -/
theorem get?_filter_eq_none {entries : Entries α} (distinct : entries.names.Nodup)
    {keep : String × α → Bool} {name : String} {value : α}
    (found : entries.get? name = some value) (dropped : keep (name, value) = false) :
    get? (entries.filter keep) name = none := by
  cases left : get? (entries.filter keep) name with
  | none => rfl
  | some other =>
    obtain ⟨member, kept⟩ := List.mem_filter.mp (mem_of_get?_eq_some left)
    have same : ((name, other) : String × α) = (name, value) :=
      List.inj_on_of_nodup_map distinct member (mem_of_get?_eq_some found) rfl
    rw [same, dropped] at kept
    cases kept

theorem get?_filter_name (entries : Entries α) (name : String) :
    get? (entries.filter fun entry => entry.1 == name) name = entries.get? name := by
  induction entries with
  | nil => rfl
  | cons entry rest inductionHypothesis =>
    by_cases same : entry.1 = name
    · simp [get?, same]
    · simp [get?, same, inductionHypothesis]

theorem filter_put_self (entries : Entries α) (name : String) (value : α) :
    (entries.put name value).filter (fun entry => entry.1 == name) =
      put (entries.filter fun entry => entry.1 == name) name value := by
  induction entries with
  | nil => simp [put]
  | cons entry rest inductionHypothesis =>
    by_cases same : entry.1 = name
    · simp [put, same]
    · simp [put, same, inductionHypothesis]

theorem filter_put_of_ne (entries : Entries α) {name other : String} (different : name ≠ other)
    (value : α) :
    (entries.put name value).filter (fun entry => entry.1 == other) =
      entries.filter fun entry => entry.1 == other := by
  induction entries with
  | nil => simp [put, different]
  | cons entry rest inductionHypothesis =>
    by_cases same : entry.1 = name
    · simp [put, same, different]
    · simp [put, same, List.filter_cons, inductionHypothesis]

/-! ## Names and places

A present name keeps its place, a new one goes to the end, so distinct names
stay distinct. -/

theorem names_put (entries : Entries α) (name : String) (value : α) :
    (entries.put name value).names =
      if name ∈ entries.names then entries.names else entries.names ++ [name] := by
  induction entries with
  | nil => rfl
  | cons entry rest inductionHypothesis =>
    by_cases same : entry.1 = name
    · simp [put, same]
    · simp only [put, same, if_false, names_cons, inductionHypothesis, List.mem_cons,
        Ne.symm same, false_or]
      split <;> rfl

theorem put_of_fresh {entries : Entries α} {name : String} (fresh : name ∉ entries.names)
    (value : α) : entries.put name value = entries ++ [(name, value)] := by
  induction entries with
  | nil => rfl
  | cons entry rest inductionHypothesis =>
    rw [names_cons, List.mem_cons, not_or] at fresh
    rw [put, if_neg (Ne.symm fresh.1), inductionHypothesis fresh.2, List.cons_append]

theorem nodup_names_put {entries : Entries α} (distinct : entries.names.Nodup) (name : String)
    (value : α) : (entries.put name value).names.Nodup := by
  rw [names_put]
  split
  · exact distinct
  · next absent =>
    rw [← List.concat_eq_append]
    exact distinct.concat absent

theorem nodup_names_concat {entries : Entries α} (distinct : entries.names.Nodup) {name : String}
    (fresh : name ∉ entries.names) (value : α) : (names (entries ++ [(name, value)])).Nodup := by
  rw [← put_of_fresh fresh]
  exact nodup_names_put distinct name value

theorem nodup_names_overlay {lower : Entries α} (distinct : lower.names.Nodup)
    (higher : Entries α) : (lower.overlay higher).names.Nodup := by
  induction higher generalizing lower with
  | nil => exact distinct
  | cons entry rest inductionHypothesis =>
    exact inductionHypothesis (nodup_names_put distinct entry.1 entry.2)

theorem nodup_names_ofPairs (pairs : List (String × α)) : (ofPairs pairs).names.Nodup := by
  have empty : (names ([] : Entries α)).Nodup := List.nodup_nil
  exact nodup_names_overlay empty pairs

theorem put_put_self (entries : Entries α) (name : String) (first second : α) :
    (entries.put name first).put name second = entries.put name second := by
  induction entries with
  | nil => simp [put]
  | cons entry rest inductionHypothesis =>
    by_cases same : entry.1 = name
    · simp [put, same]
    · simp [put, same, inductionHypothesis]

/-- The value of a present name can be stored before or after another one. -/
theorem put_comm_of_mem {entries : Entries α} {name : String} (present : name ∈ entries.names)
    {other : String} (different : other ≠ name) (value otherValue : α) :
    (entries.put other otherValue).put name value =
      (entries.put name value).put other otherValue := by
  induction entries with
  | nil => cases present
  | cons entry rest inductionHypothesis =>
    rcases entry with ⟨key, own⟩
    by_cases same : key = name
    · subst same
      simp [put, Ne.symm different]
    · have later : name ∈ names rest := by
        rcases List.mem_cons.mp present with here | later
        · exact absurd here.symm same
        · exact later
      by_cases here : key = other
      · subst here
        simp [put, different]
      · simp [put, same, here, inductionHypothesis later]

/-! ## Overlays -/

@[simp] theorem overlay_nil (lower : Entries α) : lower.overlay [] = lower := rfl

@[simp] theorem overlay_cons (lower : Entries α) (entry : String × α) (rest : Entries α) :
    lower.overlay (entry :: rest) = (lower.put entry.1 entry.2).overlay rest := rfl

theorem put_overlay_of_mem {lower : Entries α} {name : String} (present : name ∈ lower.names)
    (value : α) {higher : Entries α} (absent : name ∉ higher.names) :
    (lower.overlay higher).put name value = (lower.put name value).overlay higher := by
  induction higher generalizing lower with
  | nil => rfl
  | cons entry rest inductionHypothesis =>
    rw [names_cons, List.mem_cons, not_or] at absent
    have still : name ∈ (lower.put entry.1 entry.2).names := mem_names_put.mpr (Or.inr present)
    rw [overlay_cons, inductionHypothesis still absent.2,
      put_comm_of_mem present (Ne.symm absent.1), overlay_cons]

theorem mem_names_overlay {lower higher : Entries α} {name : String} :
    name ∈ (lower.overlay higher).names ↔ name ∈ lower.names ∨ name ∈ higher.names := by
  induction higher generalizing lower with
  | nil => simp
  | cons entry rest inductionHypothesis =>
    rw [overlay_cons, inductionHypothesis, names_cons, List.mem_cons, mem_names_put]
    constructor
    · rintro ((same | known) | later)
      · exact Or.inr (Or.inl same)
      · exact Or.inl known
      · exact Or.inr (Or.inr later)
    · rintro (known | same | later)
      · exact Or.inl (Or.inr known)
      · exact Or.inl (Or.inl same)
      · exact Or.inr later

theorem overlay_concat (lower higher : Entries α) (entry : String × α) :
    lower.overlay (higher ++ [entry]) = (lower.overlay higher).put entry.1 entry.2 :=
  List.foldl_append

theorem overlay_append (lower first second : Entries α) :
    lower.overlay (first ++ second) = (lower.overlay first).overlay second :=
  List.foldl_append

/-- A value that is replaced in the end leaves no trace, as long as the names
that are stored in between have their places already. -/
theorem put_overlay_put {lower higher : Entries α}
    (present : ∀ name ∈ higher.names, name ∈ lower.names) (name : String) (old new : α) :
    ((lower.put name old).overlay higher).put name new = (lower.overlay higher).put name new := by
  induction higher generalizing lower with
  | nil => exact put_put_self lower name old new
  | cons entry rest inductionHypothesis =>
    rcases List.forall_mem_cons.mp present with ⟨here, later⟩
    rw [overlay_cons, overlay_cons]
    by_cases same : entry.1 = name
    · rw [same, put_put_self]
    · rw [put_comm_of_mem here (Ne.symm same)]
      exact inductionHypothesis fun other member => mem_names_put.mpr (Or.inr (later other member))

/-- Laying the same entries over a table once more changes nothing, also where
they repeat names. -/
theorem overlay_overlay_self (lower higher : Entries α) :
    (lower.overlay higher).overlay higher = lower.overlay higher := by
  -- From the back: the last entry has the last word in both passes.
  induction higher using List.reverseRecOn with
  | nil => rfl
  | append_singleton init last inductionHypothesis =>
    have present : ∀ name ∈ names init, name ∈ (lower.overlay init).names :=
      fun name member => mem_names_overlay.mpr (Or.inr member)
    rw [overlay_concat, overlay_concat, put_overlay_put present, inductionHypothesis]

/-- Storing into the upper entries is storing into the overlay. -/
theorem overlay_put (lower : Entries α) {higher : Entries α} (distinct : higher.names.Nodup)
    (name : String) (value : α) :
    lower.overlay (higher.put name value) = (lower.overlay higher).put name value := by
  induction higher generalizing lower with
  | nil => rfl
  | cons entry rest inductionHypothesis =>
    rcases entry with ⟨key, own⟩
    obtain ⟨fresh, distinctRest⟩ := List.nodup_cons.mp distinct
    by_cases same : key = name
    · subst same
      have present : key ∈ (lower.put key own).names := mem_names_put.mpr (Or.inl rfl)
      rw [overlay_cons, put_overlay_of_mem present value fresh, put_put_self]
      simp only [put, if_true, overlay_cons]
    · simp only [put, same, if_false, overlay_cons]
      exact inductionHypothesis _ distinctRest

theorem get?_overlay (lower : Entries α) {higher : Entries α} (distinct : higher.names.Nodup)
    (name : String) :
    (lower.overlay higher).get? name = (higher.get? name).or (lower.get? name) := by
  induction higher generalizing lower with
  | nil => rfl
  | cons entry rest inductionHypothesis =>
    rcases entry with ⟨key, own⟩
    obtain ⟨fresh, distinctRest⟩ := List.nodup_cons.mp distinct
    rw [overlay_cons, inductionHypothesis _ distinctRest, get?_put]
    by_cases same : key = name
    · subst same
      have absent : get? rest key = none := get?_of_absent fresh
      simp [get?, absent]
    · simp [get?, same, Ne.symm same]

/-- The names of the lower entries keep their places; new names follow in the
order of the upper entries. -/
theorem names_overlay (lower : Entries α) {higher : Entries α} (distinct : higher.names.Nodup) :
    (lower.overlay higher).names =
      lower.names ++ higher.names.filter fun name => !lower.names.contains name := by
  induction higher generalizing lower with
  | nil => simp
  | cons entry rest inductionHypothesis =>
    obtain ⟨fresh, distinctRest⟩ := List.nodup_cons.mp distinct
    rw [overlay_cons, inductionHypothesis _ distinctRest, names_put]
    by_cases present : entry.1 ∈ lower.names
    · simp [present]
    · have others : ∀ name ∈ names rest, name ≠ entry.1 := by
        rintro name member rfl
        exact fresh member
      have same : (names rest).filter (fun name => !(lower.names ++ [entry.1]).contains name) =
          (names rest).filter fun name => !lower.names.contains name := by
        apply List.filter_congr
        intro name member
        simp [others name member]
      simp only [present, if_false, same]
      simp [present]

/-- Distinct new names are added at the end, in their order. -/
theorem overlay_eq_append {lower higher : Entries α} (distinct : higher.names.Nodup)
    (fresh : ∀ name ∈ higher.names, name ∉ lower.names) :
    lower.overlay higher = lower ++ higher := by
  induction higher generalizing lower with
  | nil => rw [overlay_nil, List.append_nil]
  | cons entry rest inductionHypothesis =>
    rcases List.nodup_cons.mp distinct with ⟨apart, distinctRest⟩
    have added : lower.put entry.1 entry.2 = lower ++ [entry] :=
      put_of_fresh (fresh entry.1 List.mem_cons_self) entry.2
    rw [overlay_cons, added, inductionHypothesis distinctRest, List.append_assoc,
      List.singleton_append]
    intro name member present
    rcases List.mem_append.mp (names_append lower [entry] ▸ present) with earlier | last
    · exact fresh name (List.mem_cons_of_mem entry.1 member) earlier
    · exact apart (List.mem_singleton.mp last ▸ member)

theorem nil_overlay {entries : Entries α} (distinct : entries.names.Nodup) :
    overlay [] entries = entries :=
  overlay_eq_append distinct fun _ _ => List.not_mem_nil

/-- It does not count which of three tables are put together first. -/
theorem overlay_assoc (first : Entries α) {second : Entries α} (distinct : second.names.Nodup)
    (third : Entries α) :
    (first.overlay second).overlay third = first.overlay (second.overlay third) := by
  induction third generalizing second with
  | nil => rfl
  | cons entry rest inductionHypothesis =>
    rw [overlay_cons, overlay_cons, ← overlay_put first distinct,
      inductionHypothesis (nodup_names_put distinct entry.1 entry.2)]

theorem eraseDups_of_nodup {names : List String} (distinct : names.Nodup) :
    names.eraseDups = names := by
  induction names with
  | nil => rfl
  | cons name rest inductionHypothesis =>
    rcases List.nodup_cons.mp distinct with ⟨fresh, distinctRest⟩
    have others : rest.filter (fun other => !other == name) = rest := by
      apply List.filter_eq_self.mpr
      rintro other member
      have different : other ≠ name := fun same => fresh (same ▸ member)
      simp [different]
    rw [List.eraseDups_cons, others, inductionHypothesis distinctRest]

theorem eraseDups_append_cons_of_mem {before : List String} {name : String}
    (present : name ∈ before) (after : List String) :
    (before ++ name :: after).eraseDups = (before ++ after).eraseDups := by
  have passedOver : (name :: after).removeAll before = after.removeAll before := by
    simp [List.removeAll, present]
  rw [List.eraseDups_append, passedOver, ← List.eraseDups_append]

/-- The names stand where they arrived first, the lower ones before the upper ones. -/
theorem names_overlay_eq_eraseDups {lower : Entries α} (distinct : lower.names.Nodup)
    (higher : Entries α) :
    (lower.overlay higher).names = (lower.names ++ higher.names).eraseDups := by
  induction higher generalizing lower with
  | nil => rw [overlay_nil, names_nil, List.append_nil, eraseDups_of_nodup distinct]
  | cons entry rest inductionHypothesis =>
    rw [overlay_cons, inductionHypothesis (nodup_names_put distinct entry.1 entry.2), names_put,
      names_cons]
    split
    · next present => rw [eraseDups_append_cons_of_mem present]
    · rw [List.append_assoc, List.singleton_append]

/-- Of entries laid over each other the last that have a name decide its value. -/
theorem get?_foldl_overlay {layers : List (Entries α)}
    (distinct : ∀ entries ∈ layers, entries.names.Nodup) (lower : Entries α) (name : String) :
    (layers.foldl overlay lower).get? name =
      (layers.reverse.findSome? fun entries => entries.get? name).or (lower.get? name) := by
  induction layers generalizing lower with
  | nil => rfl
  | cons entries rest inductionHypothesis =>
    rw [List.foldl_cons, inductionHypothesis fun other member =>
        distinct other (List.mem_cons_of_mem entries member),
      get?_overlay lower (distinct entries List.mem_cons_self), List.reverse_cons,
      List.findSome?_append, List.findSome?_singleton, Option.or_assoc]

/-- Storing one value under many names. -/
theorem get?_overlay_map (lower : Entries α) (names : List String) (value : α) (name : String) :
    (lower.overlay (names.map fun key => (key, value))).get? name =
      if name ∈ names then some value else lower.get? name := by
  induction names generalizing lower with
  | nil => simp
  | cons first rest inductionHypothesis =>
    rw [List.map_cons, overlay_cons, inductionHypothesis, get?_put]
    by_cases later : name ∈ rest <;> by_cases here : name = first <;> simp [later, here]

/-! ## Laying entries under others -/

theorem get?_putNew (entries : Entries α) (name other : String) (value : α) :
    (entries.putNew name value).get? other =
      (entries.get? other).or (if other = name then some value else none) := by
  unfold putNew has
  by_cases same : other = name
  · subst same
    cases found : entries.get? other <;> simp [found]
  · cases found : entries.get? name <;> simp [get?_put_of_ne, same]

/-- Laying entries under those that are there: what is there stays. -/
theorem get?_foldl_putNew (entries more : Entries α) (name : String) :
    (more.foldl (fun laid entry => laid.putNew entry.1 entry.2) entries).get? name =
      (entries.get? name).or (more.get? name) := by
  induction more generalizing entries with
  | nil => exact (Option.or_none).symm
  | cons entry rest inductionHypothesis =>
    rcases entry with ⟨key, value⟩
    rw [List.foldl_cons, inductionHypothesis, get?_putNew, Option.or_assoc]
    by_cases same : name = key
    · simp [get?, same]
    · simp [get?, same, Ne.symm same]

/-! ## Taking a name out -/

theorem swapErase_concat (init : Entries α) (last : String × α) (name : String) :
    swapErase (init ++ [last]) name =
      if (init ++ [last] : Entries α).has name = false then init ++ [last]
      else if last.1 = name then init
      else init.map fun entry => if entry.1 = name then last else entry := by
  simp only [swapErase, List.getLast?_append, List.getLast?_singleton, Option.some_or,
    List.dropLast_concat]

/-- The entries with the last one in front of all others. -/
def lastFirst (entries : Entries α) : Entries α :=
  match entries.getLast? with
  | none => []
  | some last => last :: entries.dropLast

@[simp] theorem lastFirst_nil : lastFirst ([] : Entries α) = [] := rfl

@[simp] theorem lastFirst_concat (init : Entries α) (last : String × α) :
    lastFirst (init ++ [last]) = last :: init := by
  simp only [lastFirst, List.getLast?_append, List.getLast?_singleton, Option.some_or,
    List.dropLast_concat]

theorem lastFirst_perm (entries : Entries α) : (lastFirst entries).Perm entries := by
  rcases entries.eq_nil_or_concat' with rfl | ⟨init, last, rfl⟩
  · rfl
  · rw [lastFirst_concat]
    exact (List.perm_append_singleton last init).symm

theorem cons_ne_concat {init : Entries α} {last : String × α}
    (distinct : (init ++ [last]).Nodup) (nonEmpty : init ≠ []) : last :: init ≠ init ++ [last] := by
  rcases List.exists_cons_of_ne_nil nonEmpty with ⟨first, rest, rfl⟩
  intro same
  rw [List.cons_append, ← (List.cons.inj same).1] at distinct
  exact (List.nodup_cons.mp distinct).1 (List.mem_append_right rest List.mem_cons_self)

theorem map_replace_of_absent {entries : Entries α} {name : String} (replacement : String × α)
    (absent : name ∉ entries.names) :
    (entries.map fun entry => if entry.1 = name then replacement else entry) = entries := by
  have untouched : ∀ entry ∈ entries,
      (if entry.1 = name then replacement else entry) = id entry := by
    intro entry member
    refine if_neg ?_
    rintro rfl
    exact absent (List.mem_map_of_mem member)
  rw [List.map_congr_left untouched, List.map_id]

/-- Of the entries behind the name, the last one comes to stand in front of the others. -/
theorem swapErase_around {before after : Entries α} {name : String} {value : α}
    (distinct : (names (before ++ (name, value) :: after)).Nodup) :
    swapErase (before ++ (name, value) :: after) name = before ++ lastFirst after := by
  have present : has (before ++ (name, value) :: after) name = true :=
    has_eq_true_iff.mpr (mem_names_of_mem (List.mem_append_right _ List.mem_cons_self))
  rw [names_append, names_cons, List.nodup_append, List.nodup_cons] at distinct
  rcases distinct with ⟨-, ⟨notAfter, -⟩, apart⟩
  have notBefore : name ∉ before.names := fun member =>
    apart name member name List.mem_cons_self rfl
  rcases after.eq_nil_or_concat' with rfl | ⟨between, last, rfl⟩
  · rw [swapErase_concat, if_neg (ne_false_of_eq_true present), if_pos rfl, lastFirst_nil,
      List.append_nil]
  · rw [names_append, names_cons, names_nil, List.mem_append, List.mem_singleton,
      not_or] at notAfter
    rw [← List.cons_append, ← List.append_assoc] at present ⊢
    rw [swapErase_concat, if_neg (ne_false_of_eq_true present),
      if_neg (Ne.symm notAfter.2), List.map_append, List.map_cons,
      map_replace_of_absent last notBefore, map_replace_of_absent last notAfter.1, if_pos rfl,
      lastFirst_concat]

theorem mem_of_mem_swapErase {entries : Entries α} {name : String} {entry : String × α}
    (member : entry ∈ entries.swapErase name) : entry ∈ entries := by
  rcases entries.eq_nil_or_concat' with rfl | ⟨init, last, rfl⟩
  · exact member
  · rw [swapErase_concat] at member
    split at member
    · exact member
    · split at member
      · exact List.mem_append_left _ member
      · obtain ⟨source, listed, rfl⟩ := List.mem_map.mp member
        split
        · exact List.mem_append_right _ List.mem_cons_self
        · exact List.mem_append_left _ listed

/-- The names of distinct entries stay distinct, and the name is gone. -/
theorem nodup_names_swapErase {entries : Entries α} (distinct : entries.names.Nodup)
    (name : String) :
    (entries.swapErase name).names.Nodup ∧ name ∉ (entries.swapErase name).names := by
  rcases entries.eq_nil_or_concat' with rfl | ⟨init, last, rfl⟩
  · exact ⟨List.nodup_nil, List.not_mem_nil⟩
  · have whole : names (init ++ [last]) = names init ++ [last.1] := by simp [names]
    rw [swapErase_concat]
    split
    · next absent =>
      refine ⟨distinct, fun member => ?_⟩
      rw [has_eq_true_iff.mpr member] at absent
      cases absent
    · rw [whole] at distinct
      obtain ⟨distinctInit, -, apart⟩ := List.nodup_append.mp distinct
      have lastFresh : last.1 ∉ names init := fun member =>
        apart last.1 member last.1 (List.mem_singleton.mpr rfl) rfl
      split
      · next same => exact ⟨distinctInit, same ▸ lastFresh⟩
      · next different =>
        have moved : names (init.map fun entry => if entry.1 = name then last else entry) =
            (names init).map fun key => if key = name then last.1 else key := by
          simp only [names, List.map_map]
          apply List.map_congr_left
          intro entry _
          simp only [Function.comp_apply]
          split <;> rfl
        rw [moved]
        constructor
        · apply List.Nodup.map_on _ distinctInit
          intro first firstMember second secondMember equal
          split at equal <;> split at equal
          · next firstSame secondSame => rw [firstSame, secondSame]
          · exact absurd (equal ▸ secondMember) lastFresh
          · exact absurd (equal ▸ firstMember) lastFresh
          · exact equal
        · intro member
          obtain ⟨key, -, same⟩ := List.mem_map.mp member
          split at same
          · exact different same
          · next other => exact other same

theorem mem_swapErase_of_ne {entries : Entries α} {name : String} {entry : String × α}
    (member : entry ∈ entries) (different : entry.1 ≠ name) : entry ∈ entries.swapErase name := by
  rcases entries.eq_nil_or_concat' with rfl | ⟨init, last, rfl⟩
  · cases member
  · rw [swapErase_concat]
    split
    · exact member
    · next present =>
      rcases List.mem_append.mp member with front | back
      · split
        · exact front
        · exact List.mem_map.mpr ⟨entry, front, if_neg different⟩
      · obtain rfl := List.mem_singleton.mp back
        rw [if_neg different]
        -- The last entry stands where an entry of the name has been.
        have named : name ∈ names (init ++ [entry]) :=
          has_eq_true_iff.mp (Bool.not_eq_false _ ▸ present)
        rw [names_append, names_cons, names_nil, List.mem_append, List.mem_singleton] at named
        obtain ⟨old, front, same⟩ := List.mem_map.mp (named.resolve_right (Ne.symm different))
        exact List.mem_map.mpr ⟨old, front, if_pos same⟩

theorem get?_swapErase_of_ne {entries : Entries α} (distinct : entries.names.Nodup)
    {name other : String} (different : other ≠ name) :
    (entries.swapErase name).get? other = entries.get? other := by
  cases found : entries.get? other with
  | some value =>
    exact get?_of_mem (nodup_names_swapErase distinct name).1
      (mem_swapErase_of_ne (mem_of_get?_eq_some found) different)
  | none =>
    cases left : (entries.swapErase name).get? other with
    | none => rfl
    | some value =>
      rw [get?_of_mem distinct (mem_of_mem_swapErase (mem_of_get?_eq_some left))] at found
      cases found

end Entries
end RouteDocs

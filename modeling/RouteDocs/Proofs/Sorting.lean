import Mathlib.Data.List.Nodup

namespace RouteDocs

/-!
# Sorting by a key

Routes, operations, paths and tags are all sorted by a key, and all these sorts
are stable.  A stable sort keeps the items of each key in their order and moves
items of different keys apart, so its result is known as soon as the items of
each key are known.  `mergeSort_eq_of_filter_eq` is this fact; where keys are
distinct, the order of the items before the sort does not matter at all.

Where items of one key stand next to each other, the sort keeps them together, and
`mergeSort_around` says what comes to stand on either side of them.
-/

namespace Sorting

variable {α κ : Type} [LE κ]

/-- Items with keys that do not descend. -/
def Ascending (key : α → κ) (items : List α) : Prop :=
  items.Pairwise fun first second => key first ≤ key second

variable [DecidableLE κ]

/-- The comparison that a sort by a key uses. -/
def byKey (key : α → κ) (first second : α) : Bool :=
  decide (key first ≤ key second)

variable [Std.IsLinearOrder κ] {key : α → κ}

theorem byKey_trans (first second third : α) (below : byKey key first second = true)
    (above : byKey key second third = true) : byKey key first third = true := by
  simp only [byKey, decide_eq_true_eq] at below above ⊢
  exact Std.le_trans below above

theorem byKey_total (first second : α) :
    (byKey key first second || byKey key second first) = true := by
  simp only [byKey, Bool.or_eq_true, decide_eq_true_eq]
  exact Std.le_total

theorem ascending_mergeSort (key : α → κ) (items : List α) :
    Ascending key (items.mergeSort (byKey key)) := by
  have sorted := List.pairwise_mergeSort (@byKey_trans α κ _ _ _ key) byKey_total items
  exact sorted.imp fun below => of_decide_eq_true below

variable [DecidableEq κ]

/-- The items of one key keep their order. -/
theorem filter_mergeSort (key : α → κ) (items : List α) (kept : κ) :
    (items.mergeSort (byKey key)).filter (fun item => key item == kept) =
      items.filter fun item => key item == kept := by
  have level : (items.filter fun item => key item == kept).Pairwise
      fun first second => byKey key first second = true := by
    apply List.pairwise_of_forall_mem_list
    intro first firstMember second secondMember
    have firstKey := beq_iff_eq.mp (List.mem_filter.mp firstMember).2
    have secondKey := beq_iff_eq.mp (List.mem_filter.mp secondMember).2
    rw [byKey, firstKey, secondKey]
    exact decide_eq_true (Std.le_refl kept)
  have inside : (items.filter fun item => key item == kept).Sublist
      (items.mergeSort (byKey key)) :=
    List.sublist_mergeSort byKey_trans byKey_total level List.filter_sublist
  have still := inside.filter fun item => key item == kept
  rw [List.filter_filter] at still
  simp only [Bool.and_self] at still
  have counted :=
    ((List.mergeSort_perm items (byKey key)).filter fun item => key item == kept).length_eq
  exact (still.eq_of_length counted.symm).symm

omit [DecidableLE κ] in
/-- Sorted lists with the same items for each key are the same. -/
theorem Ascending.eq_of_filter_eq {first second : List α} (sortedFirst : Ascending key first)
    (sortedSecond : Ascending key second)
    (same : ∀ kept, first.filter (fun item => key item == kept) =
      second.filter fun item => key item == kept) : first = second := by
  induction first generalizing second with
  | nil =>
    cases second with
    | nil => rfl
    | cons item rest =>
      have impossible := same (key item)
      simp at impossible
  | cons item rest inductionHypothesis =>
    cases second with
    | nil =>
      have impossible := same (key item)
      simp at impossible
    | cons other others =>
      obtain ⟨least, sortedRest⟩ := List.pairwise_cons.mp sortedFirst
      obtain ⟨otherLeast, sortedOthers⟩ := List.pairwise_cons.mp sortedSecond
      -- Each head occurs in the other list, so neither of the two keys is the greater one.
      have level : key item = key other := by
        have itemMember : item ∈ (other :: others).filter fun found => key found == key item := by
          rw [← same]
          simp
        have otherMember : other ∈ (item :: rest).filter fun found => key found == key other := by
          rw [same]
          simp
        apply Std.le_antisymm
        · rcases List.mem_cons.mp (List.mem_filter.mp otherMember).1 with equal | later
          · rw [equal]
            exact Std.le_refl _
          · exact least other later
        · rcases List.mem_cons.mp (List.mem_filter.mp itemMember).1 with equal | later
          · rw [equal]
            exact Std.le_refl _
          · exact otherLeast item later
      have heads := same (key other)
      simp only [level, BEq.rfl, List.filter_cons_of_pos, List.cons.injEq] at heads
      obtain ⟨rfl, -⟩ := heads
      rw [inductionHypothesis sortedRest sortedOthers]
      intro kept
      have whole := same kept
      simp only [List.filter_cons] at whole
      split at whole
      · exact (List.cons.inj whole).2
      · exact whole

omit [DecidableLE κ] [DecidableEq κ] in
/-- There is one way to sort items with distinct keys. -/
theorem Ascending.eq_of_perm {first second : List α} (sortedFirst : Ascending key first)
    (sortedSecond : Ascending key second) (distinct : (first.map key).Nodup)
    (same : first.Perm second) : first = second := by
  refine List.Perm.eq_of_pairwise ?_ sortedFirst sortedSecond same
  intro item other member otherMember below above
  exact List.inj_on_of_nodup_map distinct member (same.mem_iff.mpr otherMember)
    (Std.le_antisymm below above)

/-- A stable sort is determined by the items of each key. -/
theorem mergeSort_eq_of_filter_eq {first second : List α}
    (same : ∀ kept, first.filter (fun item => key item == kept) =
      second.filter fun item => key item == kept) :
    first.mergeSort (byKey key) = second.mergeSort (byKey key) := by
  apply (ascending_mergeSort key first).eq_of_filter_eq (ascending_mergeSort key second)
  intro kept
  rw [filter_mergeSort, filter_mergeSort, same]

/-! ## Items of one key within a list -/

section Around

variable (key) (bound : κ) (first second : List α)

/-- What a sort of two lists puts in front of items of one key that stand
between the lists. -/
def sortedUpTo : List α :=
  (first.filter (fun item => decide (key item ≤ bound)) ++
    second.filter (fun item => !decide (bound ≤ key item))).mergeSort (byKey key)

/-- What such a sort puts behind these items. -/
def sortedFrom : List α :=
  (first.filter (fun item => !decide (key item ≤ bound)) ++
    second.filter (fun item => decide (bound ≤ key item))).mergeSort (byKey key)

variable {key bound first second}

omit [DecidableEq κ] in
theorem mem_sortedUpTo {item : α} (member : item ∈ sortedUpTo key bound first second) :
    key item ≤ bound := by
  rcases List.mem_append.mp ((List.mergeSort_perm _ _).mem_iff.mp member) with front | back
  · exact of_decide_eq_true (List.mem_filter.mp front).2
  · have above := (List.mem_filter.mp back).2
    simp only [Bool.not_eq_true', decide_eq_false_iff_not] at above
    exact Std.le_total.resolve_right above

omit [DecidableEq κ] in
theorem mem_sortedFrom {item : α} (member : item ∈ sortedFrom key bound first second) :
    bound ≤ key item := by
  rcases List.mem_append.mp ((List.mergeSort_perm _ _).mem_iff.mp member) with front | back
  · have below := (List.mem_filter.mp front).2
    simp only [Bool.not_eq_true', decide_eq_false_iff_not] at below
    exact Std.le_total.resolve_left below
  · exact of_decide_eq_true (List.mem_filter.mp back).2

omit [LE κ] [DecidableLE κ] [Std.IsLinearOrder κ] in
/-- Of the items with some keys, those of one key are all there or none. -/
theorem filter_filter_key (items : List α) (chosen : κ → Bool) (kept : κ) :
    (items.filter fun item => chosen (key item)).filter (fun item => key item == kept) =
      if chosen kept then items.filter fun item => key item == kept else [] := by
  rw [List.filter_filter]
  cases held : chosen kept with
  | true =>
    refine List.filter_congr fun item _ => ?_
    by_cases here : key item = kept <;> simp [here, held]
  | false =>
    refine List.filter_eq_nil_iff.mpr fun item _ => ?_
    by_cases here : key item = kept <;> simp [here, held]

/-- A stable sort keeps items of one key together that stand next to each
other, and what stands before or behind them is the same whatever they are. -/
theorem mergeSort_around {middle : List α} (level : ∀ item ∈ middle, key item = bound) :
    (first ++ (middle ++ second)).mergeSort (byKey key) =
      sortedUpTo key bound first second ++ (middle ++ sortedFrom key bound first second) := by
  have sorted : Ascending key
      (sortedUpTo key bound first second ++ (middle ++ sortedFrom key bound first second)) := by
    refine List.pairwise_append.mpr ⟨ascending_mergeSort key _, List.pairwise_append.mpr
      ⟨?_, ascending_mergeSort key _, ?_⟩, ?_⟩
    · refine List.pairwise_of_forall_mem_list fun item member other otherMember => ?_
      rw [level item member, level other otherMember]
      exact Std.le_refl bound
    · intro item member other otherMember
      rw [level item member]
      exact mem_sortedFrom otherMember
    · intro item member other otherMember
      refine Std.le_trans (mem_sortedUpTo member) ?_
      rcases List.mem_append.mp otherMember with between | behind
      · rw [level other between]
        exact Std.le_refl bound
      · exact mem_sortedFrom behind
  apply (ascending_mergeSort key _).eq_of_filter_eq sorted
  intro kept
  have elsewhere : kept ≠ bound → middle.filter (fun item => key item == kept) = [] := by
    intro different
    refine List.filter_eq_nil_iff.mpr fun item member same => different ?_
    rw [← level item member, beq_iff_eq.mp same]
  rw [filter_mergeSort]
  simp only [List.filter_append, sortedUpTo, sortedFrom, filter_mergeSort,
    filter_filter_key _ (fun other => decide (other ≤ bound)),
    filter_filter_key _ (fun other => !decide (other ≤ bound)),
    filter_filter_key _ (fun other => decide (bound ≤ other)),
    filter_filter_key _ (fun other => !decide (bound ≤ other))]
  -- The items of one key stand on one side of the middle, or on both when the key is the bound.
  by_cases below : kept ≤ bound <;> by_cases above : bound ≤ kept
  · simp [below, above]
  · simp [below, above, elsewhere fun same => above (same ▸ Std.le_refl kept)]
  · simp [below, above, elsewhere fun same => below (same ▸ Std.le_refl kept)]
  · exact absurd (Std.le_total.resolve_left below) above

end Around

end Sorting
end RouteDocs

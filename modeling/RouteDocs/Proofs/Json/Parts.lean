import RouteDocs.Json.Reader
import RouteDocs.Json.Weight
import RouteDocs.Proofs.Entries

namespace RouteDocs
namespace Json

/-!
# The values inside a value

What holds of a value and of everything inside it is followed through the
reader.  The reader makes scalars of words and quoted texts, and closes lists
and objects around values that it has read.  A key that is repeated replaces
the value of the first, so the objects have each key once.
-/

/-- The items of a list or the values of an object. -/
def parts (value : Json) : List Json :=
  match value with
  | .list items => items
  | .object entries => Entries.values entries
  | _ => []

theorem weight_le_of_mem_items {items : List Json} {item : Json} (member : item ∈ items) :
    item.weight ≤ weightItems items := by
  induction items with
  | nil => cases member
  | cons first rest inductionHypothesis =>
    rw [weightItems]
    rcases List.mem_cons.mp member with rfl | later
    · omega
    · have lighter := inductionHypothesis later
      omega

theorem weight_le_of_mem_entries {entries : Entries Json} {entry : String × Json}
    (member : entry ∈ entries) : entry.2.weight ≤ weightEntries entries := by
  induction entries with
  | nil => cases member
  | cons first rest inductionHypothesis =>
    rw [weightEntries]
    rcases List.mem_cons.mp member with rfl | later
    · omega
    · have lighter := inductionHypothesis later
      omega

theorem weight_lt_of_mem_parts {value part : Json} (member : part ∈ value.parts) :
    part.weight < value.weight := by
  cases value with
  | list items =>
    rw [weight]
    have lighter : part.weight ≤ weightItems items := weight_le_of_mem_items member
    omega
  | object entries =>
    rcases List.mem_map.mp member with ⟨entry, listed, rfl⟩
    rw [weight]
    have lighter := weight_le_of_mem_entries listed
    omega
  | _ => cases member

/-- What holds of a value when it holds of its parts holds of every value. -/
theorem inductionOnParts {motive : Json → Prop}
    (step : ∀ value, (∀ part ∈ value.parts, motive part) → motive value) (value : Json) :
    motive value :=
  step value fun part member =>
    have := weight_lt_of_mem_parts member
    inductionOnParts step part
termination_by value.weight

/-- What holds of a value and of everything inside it. -/
inductive Everywhere (condition : Json → Prop) : Json → Prop where
  | intro {value : Json} (own : condition value)
      (inside : ∀ part ∈ value.parts, Everywhere condition part) : Everywhere condition value

namespace Everywhere

variable {condition : Json → Prop} {value : Json}

theorem own (holds : value.Everywhere condition) : condition value := by
  cases holds with
  | intro own inside => exact own

theorem inside (holds : value.Everywhere condition) :
    ∀ part ∈ value.parts, part.Everywhere condition := by
  cases holds with
  | intro own inside => exact inside

theorem entries {entries : Entries Json} (holds : (Json.object entries).Everywhere condition) :
    ∀ entry ∈ entries, entry.2.Everywhere condition :=
  fun _ member => holds.inside _ (List.mem_map_of_mem member)

end Everywhere

/-! ## What has been read so far -/

/-- What holds of every value that the reader makes, whatever is inside it. -/
structure OfReader (condition : Json → Prop) : Prop where
  text : ∀ characters, condition (.text characters)
  word : ∀ word value, wordValue? word = some value → condition value
  list : ∀ items, condition (.list items)
  object : ∀ entries : Entries Json, entries.names.Nodup → condition (.object entries)

/-- A word is neither a list nor an object. -/
theorem parts_wordValue? {word : List Char} {value : Json} (read : wordValue? word = some value) :
    value.parts = [] := by
  have ofReal : ∀ literal : Literal, literal.real?.map Json.real = some value →
      value.parts = [] := by
    intro literal mapped
    rcases Option.map_eq_some_iff.mp mapped with ⟨size, -, rfl⟩
    rfl
  unfold wordValue? at read
  split at read
  · cases read
    rfl
  · cases read
    rfl
  · cases read
    rfl
  · split at read
    · next literal _ =>
      unfold Literal.value? at read
      simp only at read
      split at read
      · split at read
        · split at read
          · cases read
            rfl
          · exact ofReal literal read
        · split at read
          · cases read
            rfl
          · exact ofReal literal read
      · exact ofReal literal read
    · cases read

/-- The condition holds everywhere in the values of an open list or object. -/
def Frame.Everywhere (condition : Json → Prop) (frame : Frame) : Prop :=
  match frame with
  | .list items => ∀ item ∈ items, item.Everywhere condition
  | .object entries _ => ∀ entry ∈ entries, entry.2.Everywhere condition

def Expect.Everywhere (condition : Json → Prop) (expect : Expect) : Prop :=
  match expect with
  | .finished result => result.Everywhere condition
  | _ => True

structure Build.Everywhere (condition : Json → Prop) (build : Build) : Prop where
  frames : ∀ frame ∈ build.frames, frame.Everywhere condition
  expect : build.expect.Everywhere condition

namespace Build.Everywhere

variable {condition : Json → Prop}

theorem give {frames : List Frame} {value : Json} {given : Build}
    (inside : ∀ frame ∈ frames, frame.Everywhere condition) (holds : value.Everywhere condition)
    (gave : Build.give frames value = some given) : given.Everywhere condition := by
  unfold Build.give at gave
  split at gave
  · cases gave
    exact ⟨List.forall_mem_nil _, holds⟩
  · next items outer =>
    cases gave
    refine ⟨List.forall_mem_cons.mpr ⟨?_, ?_⟩, trivial⟩
    · exact List.forall_mem_cons.mpr ⟨holds, inside _ List.mem_cons_self⟩
    · exact fun frame member => inside frame (List.mem_cons_of_mem _ member)
  · next entries key outer =>
    cases gave
    refine ⟨List.forall_mem_cons.mpr ⟨?_, ?_⟩, trivial⟩
    · exact List.forall_mem_cons.mpr ⟨holds, inside _ List.mem_cons_self⟩
    · exact fun frame member => inside frame (List.mem_cons_of_mem _ member)
  · cases gave

theorem enter {build entered : Build} (holds : build.Everywhere condition) {frame : Frame}
    (opened : frame.Everywhere condition) (enters : build.enter frame = some entered) :
    entered.Everywhere condition := by
  unfold Build.enter at enters
  split at enters
  · cases enters
    exact ⟨List.forall_mem_cons.mpr ⟨opened, holds.frames⟩, trivial⟩
  · cases enters

/-- Closing a list or an object into the lists and objects around it. -/
theorem closeList (ofReader : OfReader condition) {items : List Json} {outer : List Frame}
    {next : Build} (inside : ∀ frame ∈ Frame.list items :: outer, frame.Everywhere condition)
    (closed : Build.give outer (.list items.reverse) = some next) : next.Everywhere condition := by
  rw [List.forall_mem_cons] at inside
  have whole : (Json.list items.reverse).Everywhere condition :=
    .intro (ofReader.list _) fun item member => inside.1 item (List.mem_reverse.mp member)
  exact give inside.2 whole closed

theorem closeObject (ofReader : OfReader condition) {entries : List (String × Json)}
    {outer : List Frame} {next : Build}
    (inside : ∀ frame ∈ Frame.object entries none :: outer, frame.Everywhere condition)
    (closed : Build.give outer (.object (Entries.ofPairs entries.reverse)) = some next) :
    next.Everywhere condition := by
  rw [List.forall_mem_cons] at inside
  have whole : (Json.object (Entries.ofPairs entries.reverse)).Everywhere condition := by
    refine .intro (ofReader.object _ (Entries.nodup_names_ofPairs _)) fun part member => ?_
    rcases List.mem_map.mp member with ⟨entry, listed, rfl⟩
    rcases Entries.mem_overlay listed with given | impossible
    · exact inside.1 entry (List.mem_reverse.mp given)
    · cases impossible
  exact give inside.2 whole closed

/-- A key is not a value yet. -/
theorem key {entries : List (String × Json)} {key? : Option String} {outer : List Frame}
    (inside : ∀ frame ∈ Frame.object entries none :: outer, frame.Everywhere condition) :
    Build.Everywhere condition ⟨.object entries key? :: outer, .colon⟩ := by
  rw [List.forall_mem_cons] at inside
  exact ⟨List.forall_mem_cons.mpr ⟨inside.1, inside.2⟩, trivial⟩

/-- A token keeps what holds of all that has been read so far. -/
theorem step (ofReader : OfReader condition) {build next : Build}
    (holds : build.Everywhere condition) {token : Token} (stepped : build.step token = some next) :
    next.Everywhere condition := by
  have inside : ∀ frame ∈ build.frames, frame.Everywhere condition := holds.frames
  have emptyList : (Frame.list []).Everywhere condition := List.forall_mem_nil _
  have emptyObject : (Frame.object [] none).Everywhere condition := List.forall_mem_nil _
  unfold Build.step at stepped
  -- One case for each line of the step; the frames are those the line names.
  split at stepped
  case h_1 => exact holds.enter emptyList stepped
  case h_2 => exact holds.enter emptyObject stepped
  case h_3 atList _ =>
    rw [atList] at inside
    exact closeList ofReader inside stepped
  case h_4 atList _ =>
    rw [atList] at inside
    exact closeList ofReader inside stepped
  case h_5 atObject _ =>
    rw [atObject] at inside
    exact closeObject ofReader inside stepped
  case h_6 atObject _ =>
    rw [atObject] at inside
    exact closeObject ofReader inside stepped
  case h_7 =>
    cases stepped
    exact ⟨inside, trivial⟩
  case h_8 =>
    cases stepped
    exact ⟨inside, trivial⟩
  case h_9 atObject _ =>
    rw [atObject] at inside
    cases stepped
    exact key inside
  case h_10 atObject _ =>
    rw [atObject] at inside
    cases stepped
    exact key inside
  case h_11 =>
    split at stepped
    · exact give inside (.intro (ofReader.text _) (List.forall_mem_nil _)) stepped
    · cases stepped
  case h_12 =>
    split at stepped
    · split at stepped
      · next value read =>
        have scalar : value.parts = [] := parts_wordValue? read
        exact give inside (.intro (ofReader.word _ value read) (scalar ▸ List.forall_mem_nil _))
          stepped
      · cases stepped
    · cases stepped
  case h_13 => cases stepped

theorem run (ofReader : OfReader condition) {build last : Build} {tokens : List Token}
    (holds : build.Everywhere condition) (ran : build.run tokens = some last) :
    last.Everywhere condition := by
  induction tokens generalizing build with
  | nil =>
    cases ran
    exact holds
  | cons token rest inductionHypothesis =>
    rw [Build.run] at ran
    split at ran
    · next after stepped => exact inductionHypothesis (step ofReader holds stepped) ran
    · cases ran

end Build.Everywhere

/-- What holds of all values that the reader makes holds everywhere in a value
that is read. -/
theorem everywhere_of_read? {condition : Json → Prop} (ofReader : OfReader condition)
    {text : String} {value : Json} (read : read? text = some value) :
    value.Everywhere condition := by
  have atStart : Build.Everywhere condition ⟨[], .first⟩ := ⟨List.forall_mem_nil _, trivial⟩
  unfold read? at read
  split at read
  · split at read
    · next result ran =>
      cases read
      exact (Build.Everywhere.run ofReader atStart ran).expect
    · cases read
  · cases read

end Json
end RouteDocs

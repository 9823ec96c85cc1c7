import Mathlib.Logic.Relation
import RouteDocs.Proofs.Route.NormalPath

namespace RouteDocs
namespace Path

/-!
# Paths made of segments

Between its slashes a path has segments: texts that stand for themselves, and
placeholders, which are marked by a colon in front of their name or by braces around it.
Both marks say the same.  A text made of such segments is normalized to the segments in
braces with single slashes between them, and the placeholders of the result are the
names of its segments, in order (`normalize_of_segments`).

That a mark may be written either way beforehand holds of every text and not only of
texts made of segments: braces are put around the same names (`Rewrites.brace_eq`), and
trimming sees no difference (`Rewrites.trimList`).
-/

/-- The name of a placeholder. -/
structure Name where
  characters : List Char
  nonempty : characters ≠ []
  named : ∀ character ∈ characters, isNameCharacter character = true

/-- A segment that stands for itself: no mark of a path is in it. -/
structure Literal where
  characters : List Char
  nonempty : characters ≠ []
  plain : ∀ character ∈ characters, isMark character = false

inductive Segment where
  | literal (text : Literal)
  /-- A name behind a colon. -/
  | colon (name : Name)
  /-- A name between braces. -/
  | braces (name : Name)

namespace Segment

def written (segment : Segment) : List Char :=
  match segment with
  | .literal text => text.characters
  | .colon name => ':' :: name.characters
  | .braces name => '\x7b' :: (name.characters ++ ['\x7d'])

/-- The same segment, with braces around its name. -/
def inBraces (segment : Segment) : Segment :=
  match segment with
  | .literal text => .literal text
  | .colon name => .braces name
  | .braces name => .braces name

def name? (segment : Segment) : Option Name :=
  match segment with
  | .literal _ => none
  | .colon name => some name
  | .braces name => some name

end Segment

/-- The segments of a text, in order: one slash or more stands between neighbours, and
any number of slashes at the ends. -/
inductive Spells : List Segment → List Char → Prop where
  | nothing : Spells [] []
  | slash {segments : List Segment} {text : List Char} (behind : Spells segments text) :
      Spells segments ('/' :: text)
  | last (segment : Segment) : Spells [segment] segment.written
  | segment (first : Segment) {segments : List Segment} {text : List Char}
      (behind : Spells segments text) :
      Spells (first :: segments) (first.written ++ '/' :: text)

/-- One placeholder that has a colon in the first text has braces in the second. -/
inductive Rewrites : List Char → List Char → Prop where
  | mark (front : List Char) (name : Name) (back : List Char)
      (whole : beginsName back = false) :
      Rewrites (front ++ ':' :: (name.characters ++ back))
        (front ++ '\x7b' :: (name.characters ++ '\x7d' :: back))

/-! ## Names -/

theorem Name.beginsName_append (name : Name) (back : List Char) :
    beginsName (name.characters ++ back) = true := by
  obtain ⟨first, rest, whole⟩ := List.exists_cons_of_ne_nil name.nonempty
  rw [whole]
  exact name.named first (by simp [whole])

theorem Name.visible (name : Name) :
    ∀ character ∈ name.characters, Text.isBlank character = false := by
  intro character member
  rw [Bool.eq_false_iff]
  intro blank
  have named := name.named character member
  rw [isNameCharacter_of_isBlank blank] at named
  cases named

theorem Name.isMark_eq_false (name : Name) :
    ∀ character ∈ name.characters, isMark character = false := by
  intro character member
  rw [Bool.eq_false_iff]
  intro mark
  have named := name.named character member
  simp only [isMark, Bool.or_eq_true, beq_iff_eq] at mark
  rcases mark with ((rfl | rfl) | rfl) | rfl <;> cases named

theorem ne_of_isMark {character mark : Char} (plain : isMark character = false)
    (isOne : isMark mark = true) : character ≠ mark := by
  rintro rfl
  rw [isOne] at plain
  cases plain

/-! ## Braces around names -/

/-- A name ends in front of the first character that is in no name. -/
theorem brace_true_append {characters back : List Char}
    (named : ∀ character ∈ characters, isNameCharacter character = true)
    (whole : beginsName back = false) :
    brace true (characters ++ back) = characters ++ '\x7d' :: brace false back := by
  induction characters with
  | nil =>
    cases back with
    | nil => rfl
    | cons next others => exact brace_closed whole others
  | cons character rest inductionHypothesis =>
    obtain ⟨first, others⟩ := List.forall_mem_cons.mp named
    rw [List.cons_append, brace_named first, inductionHypothesis others, List.cons_append]

theorem brace_colon (name : Name) {back : List Char} (whole : beginsName back = false) :
    brace false (':' :: (name.characters ++ back)) =
      '\x7b' :: (name.characters ++ '\x7d' :: brace false back) := by
  rw [brace_outside, name.beginsName_append, Bool.and_true, beq_self_eq_true, if_pos rfl,
    brace_true_append name.named whole]

/-- Where no colon is, nothing is changed. -/
theorem brace_append_of_plain {characters : List Char}
    (plain : ∀ character ∈ characters, character ≠ ':') (back : List Char) :
    brace false (characters ++ back) = characters ++ brace false back := by
  induction characters with
  | nil => rfl
  | cons character rest inductionHypothesis =>
    obtain ⟨first, others⟩ := List.forall_mem_cons.mp plain
    rw [List.cons_append, brace_outside, beq_eq_false_iff_ne.mpr first, Bool.false_and,
      inductionHypothesis others]
    rfl

/-- Of the marks of a path, only braces are left in a segment with braces. -/
theorem Segment.ne_of_mem_inBraces {segment : Segment} {mark : Char}
    (isOne : isMark mark = true) (noBrace : mark ≠ '\x7b' ∧ mark ≠ '\x7d') :
    ∀ character ∈ segment.inBraces.written, character ≠ mark := by
  have ofBraces : ∀ name : Name, ∀ character ∈ (Segment.braces name).written,
      character ≠ mark := by
    intro name character member
    rw [written, List.mem_cons, List.mem_append, List.mem_singleton] at member
    rcases member with rfl | inside | rfl
    · exact noBrace.1.symm
    · exact ne_of_isMark (name.isMark_eq_false character inside) isOne
    · exact noBrace.2.symm
  cases segment with
  | literal text =>
    exact fun character member => ne_of_isMark (text.plain character member) isOne
  | colon name => exact ofBraces name
  | braces name => exact ofBraces name

/-- A segment with braces is left as it is. -/
theorem brace_inBraces (segment : Segment) (back : List Char) :
    brace false (segment.inBraces.written ++ back) =
      segment.inBraces.written ++ brace false back :=
  brace_append_of_plain (Segment.ne_of_mem_inBraces (by decide) (by decide)) back

theorem brace_braces (name : Name) (back : List Char) :
    brace false ('\x7b' :: (name.characters ++ '\x7d' :: back)) =
      '\x7b' :: (name.characters ++ '\x7d' :: brace false back) := by
  simpa [Segment.written, Segment.inBraces] using brace_inBraces (.braces name) back

theorem brace_segment (segment : Segment) {back : List Char} (whole : beginsName back = false) :
    brace false (segment.written ++ back) = segment.inBraces.written ++ brace false back := by
  cases segment with
  | literal text => exact brace_inBraces (.literal text) back
  | colon name => simpa [Segment.written, Segment.inBraces] using brace_colon name whole
  | braces name => exact brace_inBraces (.braces name) back

/-! ## Both marks say the same -/

variable {text other : List Char}

theorem Rewrites.brace_eq (rewrites : Rewrites text other) :
    brace false other = brace false text := by
  obtain ⟨front, name, back, whole⟩ := rewrites
  rw [brace_append (by decide), brace_append (by decide), brace_colon name whole,
    brace_braces]

theorem beginsName_trimBack {back : List Char} (whole : beginsName back = false) :
    beginsName (Text.trimBack back) = false := by
  obtain ⟨trimmed, -, same⟩ := Text.exists_trimBack back
  cases found : Text.trimBack back with
  | nil => rfl
  | cons first others =>
    rw [found] at same
    rw [same] at whole
    exact whole

theorem Rewrites.trimList (rewrites : Rewrites text other) :
    Rewrites (Text.trimList text) (Text.trimList other) := by
  obtain ⟨front, name, back, whole⟩ := rewrites
  rw [Text.trimList_around (by decide), Text.trimList_around (by decide),
    Text.trimBack_append_of_visible name.visible, Text.trimBack_append_of_visible name.visible,
    Text.trimBack_cons_of_visible (by decide)]
  exact .mark _ name _ (beginsName_trimBack whole)

/-- A text is normalized to the same path after any number of its placeholders were
written with braces. -/
theorem form_of_rewrites (rewritten : Relation.ReflTransGen Rewrites text other) :
    form (Text.trimList other) = form (Text.trimList text) := by
  induction rewritten with
  | refl => rfl
  | tail _ last inductionHypothesis =>
    rw [← inductionHypothesis, form, form, last.trimList.brace_eq]

/-! ## Slashes between segments -/

theorem Segment.written_ne_nil (segment : Segment) : segment.inBraces.written ≠ [] := by
  cases segment with
  | literal text => exact text.nonempty
  | colon name => exact List.cons_ne_nil _ _
  | braces name => exact List.cons_ne_nil _ _

theorem collapse_append_of_plain {characters : List Char} (nonempty : characters ≠ [])
    (plain : ∀ character ∈ characters, character ≠ '/') (afterSlash : Bool)
    (back : List Char) :
    collapse afterSlash (characters ++ back) = characters ++ collapse false back := by
  induction characters generalizing afterSlash with
  | nil => exact absurd rfl nonempty
  | cons character rest inductionHypothesis =>
    obtain ⟨first, others⟩ := List.forall_mem_cons.mp plain
    rw [List.cons_append, collapse_of_ne first, List.cons_append]
    cases rest with
    | nil => rfl
    | cons next further => rw [inductionHypothesis (List.cons_ne_nil _ _) others]

/-- A segment is written with braces, and slashes behind it are collapsed on their own. -/
theorem Segment.collapse_brace (segment : Segment) {back : List Char}
    (whole : beginsName back = false) (afterSlash : Bool) :
    collapse afterSlash (brace false (segment.written ++ back)) =
      segment.inBraces.written ++ collapse false (brace false back) := by
  rw [brace_segment segment whole,
    collapse_append_of_plain segment.written_ne_nil
      (Segment.ne_of_mem_inBraces (by decide) (by decide))]

/-- Segments with single slashes between them. -/
def joined (segments : List Segment) : List Char :=
  ['/'].intercalate (segments.map fun segment => segment.inBraces.written)

@[simp] theorem joined_nil : joined [] = [] := rfl

@[simp] theorem joined_singleton (segment : Segment) :
    joined [segment] = segment.inBraces.written :=
  List.intercalate_singleton

@[simp] theorem joined_cons_cons (first second : Segment) (segments : List Segment) :
    joined (first :: second :: segments) =
      first.inBraces.written ++ '/' :: joined (second :: segments) := by
  rw [joined, List.map_cons, List.map_cons, List.intercalate_cons_cons, List.append_assoc]
  rfl

theorem joined_ne_nil (first : Segment) (segments : List Segment) :
    joined (first :: segments) ≠ [] := by
  cases segments with
  | nil => exact joined_singleton first ▸ first.written_ne_nil
  | cons second others =>
    rw [joined_cons_cons]
    exact List.append_ne_nil_of_right_ne_nil _ (List.cons_ne_nil _ _)

theorem getLast?_joined_ne_slash (segments : List Segment) :
    (joined segments).getLast? ≠ some '/' := by
  induction segments with
  | nil => exact fun impossible => nomatch impossible
  | cons first rest inductionHypothesis =>
    cases rest with
    | nil =>
      intro ends
      rw [joined_singleton] at ends
      exact Segment.ne_of_mem_inBraces (by decide) (by decide) '/' (List.mem_of_getLast? ends) rfl
    | cons second others =>
      rw [joined_cons_cons, List.getLast?_append_of_ne_nil _ (List.cons_ne_nil _ _),
        List.getLast?_cons_of_ne_nil (joined_ne_nil second others)]
      exact inductionHypothesis

/-- Runs of slashes are left as single slashes between the segments, and perhaps as one
slash at the end. -/
theorem Spells.collapse_brace {segments : List Segment} (spells : Spells segments text) :
    collapse true (brace false text) = joined segments ∨
      (segments ≠ [] ∧ collapse true (brace false text) = joined segments ++ ['/']) := by
  induction spells with
  | nothing => exact Or.inl rfl
  | slash behind inductionHypothesis => exact inductionHypothesis
  | last segment =>
    have written : collapse true (brace false (segment.written ++ [])) =
        segment.inBraces.written ++ [] := segment.collapse_brace rfl true
    rw [List.append_nil, List.append_nil] at written
    exact Or.inl (written.trans (joined_singleton segment).symm)
  | @segment first segments text behind inductionHypothesis =>
    have written : collapse true (brace false (first.written ++ '/' :: text)) =
        first.inBraces.written ++ '/' :: collapse true (brace false text) :=
      first.collapse_brace rfl true
    cases segments with
    | nil =>
      rcases inductionHypothesis with nothing | ⟨some, -⟩
      · exact Or.inr ⟨List.cons_ne_nil _ _, by rw [written, nothing, joined_singleton, joined_nil]⟩
      · exact absurd rfl some
    | cons second others =>
      rw [written, joined_cons_cons]
      rcases inductionHypothesis with same | ⟨-, same⟩
      · exact Or.inl (by rw [same])
      · exact Or.inr ⟨List.cons_ne_nil _ _, by rw [same, List.append_assoc, List.cons_append]⟩

theorem Spells.form_eq {segments : List Segment} (spells : Spells segments text) :
    form text = '/' :: joined segments := by
  rw [form]
  rcases spells.collapse_brace with same | ⟨some, same⟩
  · rw [same]
    refine dropLastSlash_of_ends fun ends => ?_
    cases segments with
    | nil => rfl
    | cons first others =>
      rw [List.getLast?_cons_of_ne_nil (joined_ne_nil first others)] at ends
      exact absurd ends (getLast?_joined_ne_slash _)
  · rw [same, ← List.cons_append]
    exact dropLastSlash_concat (List.cons_ne_nil _ _)

/-! ## Placeholders of segments -/

theorem placeholdersFrom_append_of_plain {characters : List Char}
    (plain : ∀ character ∈ characters, isMark character = false) (back : List Char) :
    placeholdersFrom none (characters ++ back) = placeholdersFrom none back := by
  induction characters with
  | nil => rfl
  | cons character rest inductionHypothesis =>
    obtain ⟨first, others⟩ := List.forall_mem_cons.mp plain
    rw [List.cons_append, placeholdersFrom, if_neg (ne_of_isMark first rfl),
      inductionHypothesis others]

/-- A candidate becomes a placeholder where its brace is closed. -/
theorem placeholdersFrom_candidate {candidate characters : List Char}
    (nonempty : candidate ++ characters ≠ [])
    (plain : ∀ character ∈ characters, isMark character = false) (back : List Char) :
    placeholdersFrom (some candidate) (characters ++ '\x7d' :: back) =
      (candidate ++ characters) :: placeholdersFrom none back := by
  induction characters generalizing candidate with
  | nil =>
    rw [List.append_nil] at nonempty ⊢
    simp only [List.nil_append, placeholdersFrom, if_true, List.isEmpty_iff, if_neg nonempty]
  | cons character rest inductionHypothesis =>
    obtain ⟨first, others⟩ := List.forall_mem_cons.mp plain
    have noBrace : character ≠ '\x7d' := ne_of_isMark first rfl
    have noSlash : character ≠ '/' := ne_of_isMark first rfl
    rw [List.append_cons candidate] at nonempty ⊢
    rw [List.cons_append, placeholdersFrom, if_neg noBrace, if_neg noSlash,
      inductionHypothesis nonempty others]

theorem placeholdersFrom_segment (segment : Segment) (back : List Char) :
    placeholdersFrom none (segment.inBraces.written ++ back) =
      segment.name?.toList.map Name.characters ++ placeholdersFrom none back := by
  have ofBraces : ∀ name : Name, placeholdersFrom none ((Segment.braces name).written ++ back) =
      name.characters :: placeholdersFrom none back := by
    intro name
    rw [Segment.written, List.cons_append, List.append_assoc, List.singleton_append,
      placeholdersFrom, if_pos rfl]
    have nonempty : [] ++ name.characters ≠ [] := name.nonempty
    exact placeholdersFrom_candidate nonempty name.isMark_eq_false back
  cases segment with
  | literal text => exact placeholdersFrom_append_of_plain text.plain back
  | colon name => exact ofBraces name
  | braces name => exact ofBraces name

theorem placeholdersFrom_joined (segments : List Segment) :
    placeholdersFrom none (joined segments) =
      (segments.filterMap Segment.name?).map Name.characters := by
  induction segments with
  | nil => rfl
  | cons first rest inductionHypothesis =>
    have names : ((first :: rest).filterMap Segment.name?).map Name.characters =
        first.name?.toList.map Name.characters ++
          (rest.filterMap Segment.name?).map Name.characters := by
      cases found : first.name? <;> simp [found]
    rw [names, ← inductionHypothesis]
    cases rest with
    | nil =>
      have whole := placeholdersFrom_segment first []
      rw [List.append_nil] at whole
      rw [joined_singleton, whole]
      rfl
    | cons second others =>
      rw [joined_cons_cons, placeholdersFrom_segment]
      rfl

/-! ## Normal paths of segments -/

/-- A path made of segments is normalized to these in braces with single slashes between
them, whichever of its placeholders are written with braces before, and the names of its
placeholders are the names of the segments. -/
theorem normalize_of_segments {segments : List Segment} {path : String}
    (spells : Spells segments path.toList)
    (begins : ∀ first ∈ path.toList.head?, Text.isBlank first = false)
    (ends : ∀ last ∈ path.toList.getLast?, Text.isBlank last = false) :
    normalize path = String.ofList ('/' ::
        ['/'].intercalate (segments.map fun segment => segment.inBraces.written)) ∧
      (∀ other : String, Relation.ReflTransGen Rewrites path.toList other.toList →
        normalize other = normalize path) ∧
      placeholders (normalize path) =
        (segments.filterMap Segment.name?).map fun name => String.ofList name.characters := by
  have normal : (normalize path).toList = '/' :: joined segments := by
    rw [toList_normalize, Text.trimList_of_visible_ends begins ends, spells.form_eq]
  refine ⟨String.toList_inj.mp ?_, fun other rewritten => String.toList_inj.mp ?_, ?_⟩
  · rw [normal, String.toList_ofList, joined]
  · rw [toList_normalize, toList_normalize, form_of_rewrites rewritten]
  · rw [placeholders, normal, placeholdersFrom, if_neg (by decide), placeholdersFrom_joined,
      List.map_map]
    rfl

/-- The segments of a path to a line of an order, with one name twice. -/
def orderSegments : List Segment :=
  [.literal ⟨"orders".toList, by decide, by simp [isMark]⟩,
    .colon ⟨"id".toList, by decide, by simp [isNameCharacter]⟩,
    .literal ⟨"all lines".toList, by decide, by simp [isMark]⟩,
    .braces ⟨"line_2".toList, by decide, by simp [isNameCharacter]⟩,
    .colon ⟨"id".toList, by decide, by simp [isNameCharacter]⟩]

theorem spells_orderSegments :
    Spells orderSegments "orders//:id/all lines/\x7bline_2\x7d/:id//".toList := by
  have spells : Spells orderSegments _ :=
    .segment _ <| .slash <| .segment _ <| .segment _ <| .segment _ <| .segment _ <| .slash .nothing
  simpa [Segment.written] using spells

/-- Slashes in a row, slashes at the end and white space inside. -/
theorem normalize_of_segments_orders :
    normalize "orders//:id/all lines/\x7bline_2\x7d/:id//" =
        "/orders/\x7bid\x7d/all lines/\x7bline_2\x7d/\x7bid\x7d" ∧
      normalize "orders//\x7bid\x7d/all lines/\x7bline_2\x7d/:id//" =
        normalize "orders//:id/all lines/\x7bline_2\x7d/:id//" ∧
      placeholders (normalize "orders//:id/all lines/\x7bline_2\x7d/:id//") =
        ["id", "line_2", "id"] := by
  have rewrites : Rewrites "orders//:id/all lines/\x7bline_2\x7d/:id//".toList
      "orders//\x7bid\x7d/all lines/\x7bline_2\x7d/:id//".toList := by
    have mark := Rewrites.mark "orders//".toList
      ⟨"id".toList, by decide, by simp [isNameCharacter]⟩
      "/all lines/\x7bline_2\x7d/:id//".toList (by decide)
    simpa using mark
  obtain ⟨normal, same, names⟩ := normalize_of_segments spells_orderSegments
    (fun first begins => by obtain rfl : 'o' = first := Option.some.inj begins; decide)
    (fun last ends => by obtain rfl : '/' = last := Option.some.inj ends; decide)
  refine ⟨normal.trans ?_, same _ (.single rewrites), names.trans ?_⟩
  · decide
  · decide

end Path
end RouteDocs

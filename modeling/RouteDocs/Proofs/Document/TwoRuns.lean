import RouteDocs.Proofs.Document.Calls

namespace RouteDocs

/-!
# Two runs side by side

Some properties compare two runs over the same claims: from different stores,
or with and without the components that a route repeats.  `runWith` is a run
for any way to make a claim.  When every claim takes related states to related
states and fails on both sides for the same reason, the two runs end in related
states for the same reason.

The components of a run and all that it has noted are kept in two places, the
store and the list of warnings.  The ledger puts both together, and absorbing
components is one operation on it.
-/

namespace Claim

variable {σ τ : Type}

/-- Make claims one after the other in a given way, up to the first that fails. -/
def runWith (make : Claim → σ → Except Fault σ) (claims : List Claim) (before : σ) :
    σ × Option Fault :=
  match claims with
  | [] => (before, none)
  | claim :: rest =>
    match make claim before with
    | .ok after => runWith make rest after
    | .error fault => (before, some fault)

theorem run_eq_runWith (claims : List Claim) (before : Progress) :
    run claims before = runWith advance claims before := by
  induction claims generalizing before with
  | nil => rfl
  | cons claim rest inductionHypothesis =>
    unfold run runWith
    cases claim.advance before with
    | ok after => exact inductionHypothesis after
    | error fault => rfl

/-- What every claim preserves holds after a run, also after one that fails. -/
theorem runWith_invariant {invariant : σ → Prop} {make : Claim → σ → Except Fault σ}
    (preserved : ∀ claim before after, make claim before = .ok after →
      invariant before → invariant after)
    (claims : List Claim) {before : σ} (start : invariant before) :
    invariant (runWith make claims before).1 := by
  induction claims generalizing before with
  | nil => exact start
  | cons claim rest inductionHypothesis =>
    unfold runWith
    split
    · next after made => exact inductionHypothesis (preserved claim before after made start)
    · exact start

/-- Two results agree when both are faults of one kind, or both are related. -/
def Agree (related : σ → τ → Prop) (first : Except Fault σ) (second : Except Fault τ) : Prop :=
  match first, second with
  | .ok reached, .ok other => related reached other
  | .error fault, .error other => fault = other
  | _, _ => False

theorem runWith_related {related : σ → τ → Prop} {make : Claim → σ → Except Fault σ}
    {remake : Claim → τ → Except Fault τ}
    (agree : ∀ claim before other, related before other →
      Agree related (make claim before) (remake claim other))
    (claims : List Claim) {before : σ} {other : τ} (start : related before other) :
    related (runWith make claims before).1 (runWith remake claims other).1 ∧
      (runWith make claims before).2 = (runWith remake claims other).2 := by
  induction claims generalizing before other with
  | nil => exact ⟨start, rfl⟩
  | cons claim rest inductionHypothesis =>
    have step := agree claim before other start
    unfold runWith
    cases made : make claim before with
    | ok after =>
      cases remade : remake claim other with
      | ok further =>
        rw [made, remade] at step
        exact inductionHypothesis step
      | error fault =>
        rw [made, remade] at step
        exact step.elim
    | error fault =>
      cases remade : remake claim other with
      | ok further =>
        rw [made, remade] at step
        exact step.elim
      | error reason =>
        rw [made, remade] at step
        exact ⟨start, congrArg some step⟩

end Claim

/-! ## The ledger of a run -/

namespace Assembly

theorem components_absorb (assembly : Assembly) (components : Store) :
    (assembly.absorb components).store.components =
      assembly.store.components.overlay components.components := by
  simp only [absorb, Store.withoutWarnings, Store.absorb_eq_record, Store.components_record]

theorem warnings_absorb (assembly : Assembly) (components : Store) :
    (assembly.absorb components).warnings =
      assembly.warnings ++ (assembly.store.warnings ++ components.warnings) ++
        (assembly.store.components.colliding components.components).map fun entry =>
          .componentCollision entry.1 := by
  simp only [absorb, Store.absorb_eq_record, Store.warnings_record, List.append_assoc]

/-- The components of an assembly with everything that has been noted so far. -/
def ledger (assembly : Assembly) : Store where
  components := assembly.store.components
  warnings := assembly.warnings ++ assembly.store.warnings

theorem ledger_absorb (assembly : Assembly) (components : Store) :
    (assembly.absorb components).ledger = assembly.ledger.absorb components := by
  have stored : (assembly.absorb components).ledger.components =
      (assembly.ledger.absorb components).components := by
    simp only [ledger, components_absorb, Store.absorb_eq_record, Store.components_record]
  have noted : (assembly.absorb components).ledger.warnings =
      (assembly.ledger.absorb components).warnings := by
    have emptied : (assembly.absorb components).store.warnings = [] := rfl
    simp only [ledger, warnings_absorb, emptied, Store.absorb_eq_record, Store.warnings_record,
      List.append_assoc, List.append_nil]
  exact congrArg₂ Store.mk stored noted

theorem ledger_drop {assembly : Assembly} (silent : assembly.store.Silent) (path : String)
    (method : Method) (claimedBy : String) :
    (assembly.drop path method claimedBy).ledger =
      { assembly.ledger with
        warnings := assembly.ledger.warnings ++ [.duplicateOperation path method claimedBy] } := by
  have none : assembly.store.warnings = [] := silent
  simp only [ledger, drop, none, List.append_nil]

theorem warnings_ledger {assembly : Assembly} (silent : assembly.store.Silent) :
    assembly.ledger.warnings = assembly.warnings := by
  have none : assembly.store.warnings = [] := silent
  simp only [ledger, none, List.append_nil]

end Assembly
end RouteDocs

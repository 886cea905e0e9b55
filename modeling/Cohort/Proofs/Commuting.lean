import Cohort.Proofs.Tenants
import Mathlib.Logic.Equiv.Defs

/-!
# Passes of different groups

Two passes of different groups may be made in either order.  While the sequence of rows
is in order, neither changes what the other plans from; only the rows that the two add
are numbered the other way round.
-/

namespace Cohort

/-! ## Runs of numbers -/

section ExchangeRuns

variable {last : Int} {front back : Nat} {id : Int}

end ExchangeRuns

namespace Store

variable {store : Store}

variable {front back : ChangeSet}

theorem apply_inOrder_of_apply_apply (inOrder : ((store.apply front).apply back).lapped = false) :
    (store.apply back).lapped = false := by
  obtain ⟨first, backFits⟩ := apply_lapped.mp inOrder
  rw [apply_lastMember first] at backFits
  obtain ⟨before, _⟩ := apply_lapped.mp first
  refine apply_lapped.mpr ⟨before, backFits.imp id fun most => ?_⟩
  omega

variable {firstGroup secondGroup : Int}

theorem Filed.pass (filed : store.Filed) (owner : String) (id : Int) (now : Instant) :
    (store.pass owner id now).2.Filed := by
  have kept : ((store.faultless now .together).run
      (({} : Evaluation).reconcile owner id).run).2.store.Filed :=
    FaultyStore.run_keeps (fun _ _ _ before committed => before.commit committed) _ filed
  rw [store.run_reconcile] at kept
  exact kept

theorem ChangedAlike.inOrder {id : Int} {changes : ChangeSet} {after left : Store}
    (alike : ChangedAlike id store (store.apply changes) after left)
    (inOrder : left.lapped = false) : after.lapped = false := by
  cases alike with
  | unchanged => exact lapped_of_apply inOrder
  | applied back _ _ _ => exact apply_inOrder_of_apply_apply inOrder

end Store

end Cohort

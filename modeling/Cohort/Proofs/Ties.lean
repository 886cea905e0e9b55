import Cohort.Proofs.PassTrace

/-!
# Contacts that carry the same identifier

A program is blind to ties if it ends with the same value whichever way contacts with
the same identifier come.  Segments, passes and rounds are, since they put the contacts
into a set.
-/

namespace Cohort

/-- The same contacts with the same identifiers one after the other. -/
structure SameButForTies (left right : List Contact) : Prop where
  perm : left.Perm right
  ids : left.map Contact.id = right.map Contact.id

/-- The answers to a call are the same, but lists of contacts need only be close. -/
def Call.SameBut (close : List Contact → List Contact → Prop) :
    (call : Call) → call.Answer → call.Answer → Prop
  | .liveContacts _, .ok left, .ok right => close left right
  | _, left, right => left = right

def Call.ListsContacts : Call → Prop
  | .liveContacts _ => True
  | _ => False

theorem Call.SameBut.eq {close : List Contact → List Contact → Prop} {call : Call}
    {left right : call.Answer} (same : call.SameBut close left right)
    (others : ¬call.ListsContacts) : left = right := by
  cases call with
  | liveContacts owner => exact (others trivial).elim
  | _ => exact same

namespace Program

variable {α β : Type} {close : List Contact → List Contact → Prop}

/-- The programs make the same calls and end with the same value, if answers differ at
most as allowed. -/
inductive Agree (close : List Contact → List Contact → Prop) :
    Program α → Program α → Prop where
  | done (value : α) : Agree close (.done value) (.done value)
  | ask (call : Call) {left right : call.Answer → Program α} :
      (∀ answer another, call.SameBut close answer another →
        Agree close (left answer) (right another)) →
      Agree close (.ask call left) (.ask call right)

theorem Agree.bind {left right : Program α} {leftRest rightRest : α → Program β}
    (first : left.Agree close right)
    (second : ∀ value, (leftRest value).Agree close (rightRest value)) :
    (left.bind leftRest).Agree close (right.bind rightRest) := by
  induction first with
  | done value => exact second value
  | ask call _ induction => exact .ask call induction

/-- The program ends the same whichever way contacts with the same identifier come. -/
def TieBlind (program : Program α) : Prop :=
  program.Agree SameButForTies program

theorem MakesOnly.tieBlind {program : Program α}
    (only : program.MakesOnly fun call => ¬call.ListsContacts) : program.TieBlind := by
  induction program with
  | done value => exact .done value
  | ask call next induction =>
      refine .ask call fun answer another related => ?_
      cases related.eq only.1
      exact induction answer (only.2 answer)

theorem call_tieBlind (call : Call) (others : ¬call.ListsContacts) :
    (Program.call call).TieBlind :=
  .ask call fun _ _ related => related.eq others ▸ .done _

end Program

theorem Attempt.tieBlind_bind {α β : Type} {attempt : Attempt α} {rest : α → Attempt β}
    (first : attempt.run.TieBlind) (second : ∀ value, (rest value).run.TieBlind) :
    (attempt >>= rest).run.TieBlind := by
  apply Program.Agree.bind first
  intro value
  cases value with
  | error failure => exact .done _
  | ok value => exact second value

theorem PreparedCriteria.segment_congr (criteria : PreparedCriteria) (tags : TagTable)
    {left right : List Contact} (same : left.Perm right) (inHalves : Bool) :
    criteria.segment tags left inHalves = criteria.segment tags right inHalves := by
  have matched : criteria.matching tags left = criteria.matching tags right := by
    apply IdSet.eq_of_mem_iff
    intro id
    simp only [mem_matching, same.mem_iff]
  unfold segment
  rw [matchingByHalves_eq, matchingByHalves_eq, matched]

namespace Evaluation

variable (evaluation : Evaluation) (owner : String)

theorem judging_congr (criteria : Criteria) {left right : List Contact}
    (same : SameButForTies left right) :
    evaluation.judging criteria left = evaluation.judging criteria right := by
  unfold judging
  rw [same.perm.isEmpty_eq, same.ids, same.perm.length_eq]
  simp only [PreparedCriteria.segment_congr _ _ same.perm]

theorem segment_tieBlind (criteria : Criteria) :
    (evaluation.segment owner criteria).run.TieBlind := by
  rw [segment_eq]
  refine .ask (.liveContacts owner) fun answer another related => ?_
  have judged (contacts : List Contact) : (evaluation.judging criteria contacts).run.TieBlind :=
    ((evaluation.judging_makesOnly criteria contacts).mono fun call reads lists => by
      cases call <;> first | exact reads | exact lists).tieBlind
  cases answer with
  | error failure =>
      cases another with
      | error other =>
          cases related
          exact .done _
      | ok contacts => cases related
  | ok contacts =>
      cases another with
      | error failure => cases related
      | ok others =>
          show (evaluation.judging criteria contacts).run.Agree SameButForTies
            (evaluation.judging criteria others).run
          rw [evaluation.judging_congr criteria related]
          exact judged others

theorem segmentSize_tieBlind (criteria : Criteria) :
    (evaluation.segmentSize owner criteria).run.TieBlind :=
  Attempt.tieBlind_bind (evaluation.segment_tieBlind owner criteria) fun _ => .done _

theorem reconcileLocked_tieBlind (id : Int) :
    (evaluation.reconcileLocked owner id).run.TieBlind := by
  rw [reconcileLocked_eq]
  apply Attempt.tieBlind_bind (Program.call_tieBlind (.liveGroup owner id) not_false)
  intro found
  cases found with
  | none => exact .done _
  | some group =>
      simp only [reconcileLooked]
      cases group.readCriteria with
      | error problem => exact .done _
      | ok criteria =>
          apply Attempt.tieBlind_bind (evaluation.segment_tieBlind owner criteria)
          intro segment
          apply Program.MakesOnly.tieBlind
          exact Attempt.makesOnly_bind ⟨not_false, fun _ => trivial⟩ fun rows =>
            Attempt.makesOnly_bind ⟨not_false, fun _ => trivial⟩ fun now =>
              Attempt.makesOnly_bind ⟨not_false, fun _ => trivial⟩ fun _ => trivial

theorem reconcile_tieBlind (id : Int) : (evaluation.reconcile owner id).run.TieBlind := by
  apply Program.Agree.bind (Program.call_tieBlind (.lock id) not_false)
  intro _
  apply Program.Agree.bind (evaluation.reconcileLocked_tieBlind owner id)
  intro result
  apply Program.Agree.bind (Program.call_tieBlind (.unlock id) not_false)
  intro _
  exact .done result

theorem reconcileEach_tieBlind (ids : List Int) :
    (evaluation.reconcileEach owner ids).TieBlind := by
  induction ids with
  | nil => exact .done _
  | cons id ids induction =>
      have succeeds : (evaluation.reconcileSucceeds owner id).TieBlind :=
        (evaluation.reconcile_tieBlind owner id).bind fun _ => .done _
      apply succeeds.bind
      intro succeeded
      apply induction.bind
      intro summary
      exact .done _

theorem reconcileOwner_tieBlind : (evaluation.reconcileOwner owner).run.TieBlind := by
  apply Attempt.tieBlind_bind (Program.call_tieBlind (.liveGroups owner) not_false)
  intro groups
  apply (evaluation.reconcileEach_tieBlind owner _).bind
  intro summary
  exact .done _

theorem reconcileOwners_tieBlind (summary : RoundSummary) (owners : List String) :
    (evaluation.reconcileOwners summary owners).TieBlind := by
  induction owners generalizing summary with
  | nil => exact .done _
  | cons owner owners induction =>
      apply (evaluation.reconcileOwner_tieBlind owner).bind
      intro result
      exact induction (summary.count result)

theorem round_tieBlind : evaluation.round.run.TieBlind := by
  apply Attempt.tieBlind_bind (Program.call_tieBlind .ownersWithGroups not_false)
  intro owners
  apply (evaluation.reconcileOwners_tieBlind _ owners).bind
  intro summary
  exact .done _

/-- Evaluations of criteria, passes and rounds. -/
inductive Work : {α : Type} → Program α → Prop where
  | segment (owner : String) (criteria : Criteria) : Work (evaluation.segment owner criteria).run
  | size (owner : String) (criteria : Criteria) : Work (evaluation.segmentSize owner criteria).run
  | pass (owner : String) (id : Int) : Work (evaluation.reconcile owner id).run
  | ownerPasses (owner : String) : Work (evaluation.reconcileOwner owner).run
  | round : Work evaluation.round.run

variable {evaluation}

theorem Work.tieBlind {α : Type} {program : Program α} (work : evaluation.Work program) :
    program.TieBlind := by
  cases work with
  | segment owner criteria => exact evaluation.segment_tieBlind owner criteria
  | size owner criteria => exact evaluation.segmentSize_tieBlind owner criteria
  | pass owner id => exact evaluation.reconcile_tieBlind owner id
  | ownerPasses owner => exact evaluation.reconcileOwner_tieBlind owner
  | round => exact evaluation.round_tieBlind

end Evaluation

end Cohort

/-
Use cases with the database to themselves: a reader of several statements sees one
snapshot.
-/
import MuxivoConsole.Application.Listings
import MuxivoConsole.Guarantees.Reads

namespace MuxivoConsole

open Interleaving

/-- What the authorizer decides on one snapshot. -/
def Database.permits (database : Database) (request : AuthorizationRequest) : Bool :=
  (database.membership request.actorId request.organizationId).any (·.allows request)

section Console

variable {database store : Database} {α : Type} {inputs : List (Input console)}
variable {outcome : Except Failure α}

@[simp] theorem runs_getMembership_bind {actorId organizationId : UUID}
    {continuation : Option OrganizationMembership → UseCase α} :
    (UseCase.getMembership actorId organizationId >>= continuation).Runs database inputs
        outcome store ↔
      (continuation (database.membership actorId organizationId)).Runs database inputs outcome
        store := by
  change (Execution.bind (Execution.bind _ _) _).Runs _ _ _ _ ↔ _
  unfold Database.membership
  simp only [Execution.select, Execution.bind]
  cases hrow : database.membershipRow actorId organizationId with
  | none =>
      simp only [Execution.Runs, hrow]
      exact Iff.rfl
  | some row =>
      simp only [Execution.Runs, hrow]
      exact Iff.rfl

@[simp] theorem runs_authorize_bind {request : AuthorizationRequest}
    {continuation : AuthorizationDecision → UseCase α} :
    (UseCase.authorize request >>= continuation).Runs database inputs outcome store ↔
      (continuation ⟨database.permits request⟩).Runs database inputs outcome store := by
  unfold UseCase.authorize Database.permits
  rw [Execution.runs_bind_assoc, runs_getMembership_bind]
  cases database.membership request.actorId request.organizationId with
  | none => exact Iff.rfl
  | some membership => exact Iff.rfl

end Console

end MuxivoConsole

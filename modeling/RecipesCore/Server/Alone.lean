import RecipesCore.App.Submissions
import RecipesCore.Server.Router

/-!
# A request while nobody else writes

`Task.amid` runs a coroutine to its end. Before each of its submissions the worker may run reads of
other requests; a `Turn` says which, and what SQLite makes of the submission itself. A request
*alone* meets no reads.
-/

namespace RecipesCore.Net

open RecipesCore.App
open RecipesCore.Db

/-- A reading operation of another request. -/
structure ReadCall where
  operation : ServiceOperation
  onlyReads : operation.onlyReads = true
  environment : List StepOutcome := []

/-- The manager after some reads. -/
def afterReads (reads : List ReadCall) (m : DBManager) : DBManager :=
  reads.foldl (fun m read => (read.operation.call read.environment m).2) m

@[simp] theorem afterReads_nil (m : DBManager) : afterReads [] m = m := rfl

/-- Reads of others do not touch the data. -/
theorem afterReads_db (reads : List ReadCall) (m : DBManager) : (afterReads reads m).db = m.db := by
  induction reads generalizing m with
  | nil => rfl
  | cons read reads ih => exact (ih _).trans (call_read_db read.onlyReads)

structure Turn where
  reads : List ReadCall := []
  environment : List StepOutcome := []

/-- The submission that takes this turn finds its `SELECT` not left failed, and SQLite goes on in
its first step. -/
def Turn.Reads (turn : Turn) (r : Read) (m : DBManager) : Prop :=
  (afterReads turn.reads m).failureOf (.read r) = none ∧
    ∃ gap, (nextOutcome turn.environment).1 = .proceed gap

def Task.amid : Task → List Turn → DBManager → Response × DBManager
  | .done response, _, m => (response, m)
  | .submit operation resume, turns, m =>
      let turn := turns.headD {}
      let (result, m') := operation.call turn.environment (afterReads turn.reads m)
      (resume result).amid turns.tail m'

/-- Nothing else runs. -/
def Task.alone (task : Task) (environments : List (List StepOutcome)) (m : DBManager) :
    Response × DBManager :=
  task.amid (environments.map fun environment => { environment }) m

namespace Router

variable {router : Router} {request : Request} {m m' : DBManager} {turns : List Turn}
  {response : Response}

/-- An application error is never a success. -/
theorem appErrorStatus_failed (code : ErrorCode) : (appErrorStatus code).1.failed := by
  cases code <;> decide

theorem makeAppErrorResponse_failed (error : App.Error) :
    (router.makeAppErrorResponse error request).status.failed := appErrorStatus_failed error.code

/-- A submission that is not answered with an error came back with a value. -/
theorem amid_submit {operation : ServiceOperation} {k : operation.Result → Task}
    (h : (Task.submit operation (router.orAppError request k)).amid turns m = (response, m'))
    (hstatus : ¬ response.status.failed) :
    ∃ a, (operation.call (turns.headD {}).environment (afterReads (turns.headD {}).reads m)).1 =
        .ok a ∧
      (k a).amid turns.tail
        (operation.call (turns.headD {}).environment (afterReads (turns.headD {}).reads m)).2 =
        (response, m') := by
  rw [Task.amid] at h
  cases hcall : operation.call (turns.headD {}).environment (afterReads (turns.headD {}).reads m)
    with
  | mk result m₁ =>
      simp only [hcall] at h
      cases result with
      | error error =>
          obtain ⟨rfl, -⟩ := Prod.mk.inj h
          exact absurd (makeAppErrorResponse_failed error) hstatus
      | ok a => exact ⟨a, rfl, h⟩

/-- A request that does not fail has a body that parses. -/
theorem amid_withBody {α : Type} {parse : String → Except (Status × String) α} {k : α → Task}
    (h : (router.withBody request parse k).amid turns m = (response, m'))
    (hparse : ∀ status message, parse request.body = .error (status, message) → status.failed)
    (hstatus : ¬ response.status.failed) :
    ∃ a, parse request.body = .ok a ∧ (k a).amid turns m = (response, m') := by
  unfold withBody at h
  split at h
  · split at h
    · next status message heq =>
        obtain ⟨rfl, -⟩ := Prod.mk.inj h
        exact absurd (hparse status message heq) hstatus
    · next a ha => exact ⟨a, ha, h⟩
  · obtain ⟨rfl, -⟩ := Prod.mk.inj h
    exact absurd (by decide : Status.unsupportedMediaType.failed) hstatus

end Router

end RecipesCore.Net

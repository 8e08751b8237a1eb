import Weblog.World

/-!
# Tasks as scripts

Which script a task is: an error ends it (`run_bind`), the end of a transaction depends on the
result of what was done in it (`run_finish_ok`, `run_finish_error`), and a transaction is begun,
worked in and ended (`run_transact`).
-/

namespace Weblog.Task

variable {α β : Type}

/-- What is done after a task depends on its result; after an error it is nothing. -/
theorem run_bind (x : Task α) (f : α → Task β) :
    (x >>= f).run = x.run.bind fun
      | .ok a => (f a).run
      | .error e => .done (.error e) := by
  change Script.bind x.run _ = _
  congr 1
  funext result
  cases result <;> rfl

theorem run_map (f : α → β) (x : Task α) :
    (f <$> x).run = x.run.bind fun result => .done (result.map f) := by
  rw [map_eq_pure_bind, run_bind]
  congr 1
  funext result
  cases result <;> rfl

theorem run_finish_ok (a : α) :
    (finish (.ok a)).run = .ask .commit fun
      | .ok () => .done (.ok a)
      | .error e => .done (.error e) := by
  rw [finish, run_bind]
  change Script.ask Access.commit _ = _
  congr 1
  funext answer
  cases answer <;> rfl

theorem run_finish_error (e : Error) :
    (finish (.error e) : Task α).run = .ask .rollback fun
      | .ok () => .done (.error e)
      | .error failure => .report (.rollbackFailed failure e) (.done (.error e)) := rfl

theorem run_transact (body : Task α) :
    (transact body).run = .ask .begin fun
      | .ok () => body.run.bind fun result => (finish result).run
      | .error e => .done (.error e) := by
  rw [transact, run_bind]
  change Script.ask Access.begin _ = _
  congr 1
  funext answer
  cases answer with
  | error e => rfl
  | ok u =>
    change (ExceptT.lift body.run >>= fun result => finish result).run = _
    rw [run_bind]
    change (body.run.bind _).bind _ = _
    rw [Script.bind_assoc]
    rfl

end Weblog.Task

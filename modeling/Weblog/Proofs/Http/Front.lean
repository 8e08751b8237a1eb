import Weblog.Http.Handling
import Weblog.Proofs.Atomicity
import Weblog.Proofs.Http.Routes

/-!
# Requests as operations

A request does what the operation that it means does, and nothing else; what means no operation does
nothing.

* `shown_handle`: a report and a response are all that is added to an operation.
* `faithful_handle`: how a request is handled when no transaction is open (`Faithful`).
* `Reached.free`: no transaction is left open, whatever was done before.
* `requests_faithful`: how a request is handled after anything that was done before.
-/

namespace Weblog

/-! ## Operations -/

/-- Whether an operation creates something. -/
def Operation.creates : Operation → Bool
  | createPost _ | createCategory _ => true
  | _ => false

theorem Operation.successStatus_eq (op : Operation) :
    op.successStatus = if op.creates then 201 else 200 := by
  cases op <;> rfl

/-- What is done with a task shows in its result. -/
theorem Task.ok_of_map {α β : Type} {f : α → β} {x : Task α} {s : Surroundings} {w : World} {b : β}
    (h : ((f <$> x).run.perform s w).1 = .answered (.ok b)) : ∃ a, f a = b := by
  change ((f <$> x).run.run s w).1 = _ at h
  rw [Task.run_map, Script.run_bind] at h
  generalize x.run.run s w = ran at h
  obtain ⟨⟨e | a⟩ | m | _, w'⟩ := ran
  · cases h
  · exact ⟨a, Except.ok.inj (Outcome.answered.inj h)⟩
  · cases h
  · cases h

/-- What is said of an operation that succeeded is its reply, or a message if there is no more to
say than that it was done. -/
def Operation.Tells (op : Operation) (reply : Reply) (answer : Json) : Prop :=
  match op with
  | deleteDraft _ | attach _ => ∃ text, answer = .object [("message", .string text)]
  | _ => reply ≠ .done ∧ answer = reply.toJson

theorem Operation.tells_answer {s : Surroundings} {sanitizer : Sanitizer} {op : Operation}
    {w : World} {reply : Reply} (h : (op.perform s sanitizer w).1 = .answered (.ok reply)) :
    op.Tells reply (op.answer reply) := by
  cases op <;> obtain ⟨a, rfl⟩ := Task.ok_of_map h
  case deleteDraft | attach => exact ⟨_, rfl⟩
  all_goals exact ⟨nofun, rfl⟩

namespace Http

/-- What becomes of an operation that a request of some name means: the response shows the reply
or the error, and what was achieved is reported. -/
inductive Shown (name : RequestId) (op : Operation) (did : Outcome (Except Error Reply) × World) :
    Outcome Response × World → Prop
  | done {reply : Reply} (h : did.1 = .answered (.ok reply))
    (htells : op.Tells reply (op.answer reply)) :
    Shown name op did
      (.answered (.of (if op.creates then 201 else 200) (.value (op.answer reply))),
        { did.2 with
          events := ((op.achievement? reply).map (.handled name)).toList ++ did.2.events })
  | refused {e : Error} (h : did.1 = .answered (.error e)) :
    Shown name op did (.answered (.of e.status (.error e)), did.2)
  | panicked {m : Method} (h : did.1 = .panicked m) : Shown name op did (.panicked m, did.2)
  | pending (h : did.1 = .pending) : Shown name op did (.pending, did.2)

variable (s : Surroundings) (sanitizer : Sanitizer) (name : RequestId) (w : World)

/-- What is reported of an operation is all that handling adds to it. -/
theorem shown_handle (op : Operation) :
    Shown name op (op.perform s sanitizer w)
      ((Response.ofResult op <$> (op.handle sanitizer name).run).perform s w) := by
  have hrun : (Response.ofResult op <$> (op.handle sanitizer name).run).run s w =
      match (op.task sanitizer).run.run s w with
      | (.answered (.ok reply), w') =>
        (.answered (.of op.successStatus (.value (op.answer reply))),
          { w' with events := ((op.achievement? reply).map (.handled name)).toList ++ w'.events })
      | (.answered (.error e), w') => (.answered (.ofError e), w')
      | (.panicked m, w') => (.panicked m, w')
      | (.pending, w') => (.pending, w') := by
    rw [Script.run_map, Operation.handle, Task.run_bind, Script.run_bind]
    rcases (op.task sanitizer).run.run s w with ⟨⟨e | reply⟩ | m | _, w'⟩
    · rfl
    · dsimp only
      cases op.achievement? reply <;> rfl
    · rfl
    · rfl
  have htells : ∀ reply, (op.perform s sanitizer w).1 = .answered (.ok reply) →
      op.Tells reply (op.answer reply) := fun _ => Operation.tells_answer
  unfold Operation.perform Script.perform at htells ⊢
  rw [hrun]
  generalize (op.task sanitizer).run.run s w = did at htells ⊢
  obtain ⟨⟨e | reply⟩ | m | _, w'⟩ := did
  · exact .refused rfl
  · rw [op.successStatus_eq]
    exact .done rfl (htells reply rfl)
  · exact .panicked rfl
  · exact .pending rfl

/-! ## Requests -/

/-- How a request is to be handled, which comes at a time of the day and to a world. -/
structure Faithful (time : Instant) (r : Request) (ran : Outcome Response × World) : Prop where
  /-- What leads nowhere does nothing. -/
  nowhere : (∀ route, ¬ r.LeadsTo route) → ran = (.answered .notFound, w)
  health : r.LeadsTo .health → ran = (.answered (.of 200 (.health time)), w)
  /-- What means nothing does nothing and is refused as invalid input. -/
  meaningless : ∀ endpoint, r.LeadsTo (.service endpoint) → (∀ op, ¬ endpoint.Means r op) →
    ∃ e : Error, e.kind = .invalidInput ∧ ran = (.answered (.of 400 (.error e)), w)
  /-- What means an operation does it, once. -/
  means : ∀ endpoint op, r.LeadsTo (.service endpoint) → endpoint.Means r op →
    Shown name op (op.perform s sanitizer w) ran
  /-- There is an answer unless a fault strikes. -/
  answers : (∀ m n, s.faults m n = none) → ∃ response, ran.1 = .answered response
  looks : r.method = "GET" → ran.2.store = w.store
  refuses : ∀ response, ran.1 = .answered response → 400 ≤ response.status →
    ran.2.store = w.store

section

variable {s sanitizer name w} {t : Tables} {op : Operation} {ran : Outcome Response × World}

theorem Shown.answers (hfree : w.store.Free t) (hnone : ∀ m n, s.faults m n = none)
    (h : Shown name op (op.perform s sanitizer w) ran) :
    ∃ response, ran.1 = .answered response := by
  have hanswered : ∃ answer, (op.perform s sanitizer w).1 = .answered answer := by
    cases perform_cases s sanitizer op hfree with
    | done _ hanswer => exact ⟨_, hanswer⟩
    | struck hstruck => exact absurd (Surroundings.calm_of_no_faults hnone) hstruck
  obtain ⟨answer, hanswer⟩ := hanswered
  cases h with
  | done | refused => exact ⟨_, rfl⟩
  | panicked h | pending h => cases hanswer.symm.trans h

theorem Shown.store_eq (h : Shown name op (op.perform s sanitizer w) ran) :
    ran.2.store = (op.perform s sanitizer w).2.store := by
  cases h <;> rfl

/-- An error is shown only of what failed. -/
theorem Shown.refuses (hfree : w.store.Free t) (h : Shown name op (op.perform s sanitizer w) ran)
    {response : Response} (hresponse : ran.1 = .answered response)
    (hstatus : 400 ≤ response.status) : ran.2.store = w.store := by
  cases h with
  | done hdid =>
    obtain rfl := Outcome.answered.inj hresponse
    exfalso
    revert hstatus
    change ¬ 400 ≤ if op.creates then 201 else 200
    split <;> decide
  | refused hdid =>
    refine (perform_of_fails s sanitizer op hfree ?_).trans hfree.symm
    rw [hdid]
    exact Outcome.fails_error _
  | panicked | pending => cases hresponse

end

/-- An address that is asked with GET is one to look at. -/
theorem Endpoint.Means.looks {r : Request} {endpoint : Endpoint} {op : Operation}
    (hget : r.method = "GET") (hroute : r.LeadsTo (.service endpoint)) (h : endpoint.Means r op) :
    op.isMutation = false := by
  obtain ⟨segments, -, hleads⟩ := hroute
  generalize r.method = method at hget hleads
  cases hleads
  case getVersion | getPost | getCategory =>
    cases h
    rfl
  all_goals exact absurd hget (by decide)

/-! ## Scripts of requests -/

section

variable (sanitizer : Sanitizer) (time : Instant) (name : RequestId) {r : Request}
  {endpoint : Endpoint}

theorem handle_of_nowhere (h : ∀ route, ¬ r.LeadsTo route) :
    handle sanitizer time name r = pure .notFound := by
  have hroute : r.route? = none :=
    Option.eq_none_iff_forall_ne_some.mpr fun route hroute =>
      h route (Request.route?_eq_some_iff.mp hroute)
  rw [handle, hroute]

theorem handle_of_health (h : r.LeadsTo .health) :
    handle sanitizer time name r = pure (.health time) := by
  rw [handle, Request.route?_eq_some_iff.mpr h]

theorem handle_of_meaningless (h : r.LeadsTo (.service endpoint))
    (hnothing : ∀ op, ¬ endpoint.Means r op) :
    ∃ e : Error, e.kind = .invalidInput ∧
      handle sanitizer time name r = pure (.of 400 (.error e)) := by
  rw [handle, Request.route?_eq_some_iff.mpr h]
  cases hop : endpoint.operation r with
  | error e =>
    have hkind := Endpoint.kind_of_operation hop
    have hstatus : e.status = 400 := congrArg ErrorKind.status hkind
    refine ⟨e, hkind, ?_⟩
    simp only [hop, Response.ofError, hstatus]
  | ok op => exact absurd (Endpoint.operation_eq_ok_iff.mp hop) (hnothing op)

theorem handle_of_means {op : Operation} (h : r.LeadsTo (.service endpoint))
    (hmeans : endpoint.Means r op) :
    handle sanitizer time name r = Response.ofResult op <$> (op.handle sanitizer name).run := by
  rw [handle, Request.route?_eq_some_iff.mpr h]
  simp only [Endpoint.operation_eq_ok_iff.mpr hmeans]

/-- A request is answered at once, or it means an operation. -/
theorem handle_cases (r : Request) :
    (∃ response, handle sanitizer time name r = pure response) ∨
      ∃ endpoint op, r.LeadsTo (.service endpoint) ∧ endpoint.Means r op := by
  cases hroute : r.route? with
  | none => exact .inl ⟨_, by rw [handle, hroute]⟩
  | some route =>
    have hleads := Request.route?_eq_some_iff.mp hroute
    cases route with
    | health => exact .inl ⟨_, handle_of_health sanitizer time name hleads⟩
    | service endpoint =>
      cases hop : endpoint.operation r with
      | error e =>
        refine .inl ⟨.ofError e, ?_⟩
        rw [handle, hroute]
        simp only [hop]
      | ok op => exact .inr ⟨endpoint, op, hleads, Endpoint.operation_eq_ok_iff.mp hop⟩

end

/-! ## Runs of requests -/

section

variable {t : Tables} (hfree : w.store.Free t)

include hfree

theorem perform_pure (response : Response) :
    (pure response : Script Response).perform s w = (.answered response, w) :=
  congrArg (fun store => (Outcome.answered response, { w with store })) (Store.abandon_free hfree)

/-- A request is handled as it is to be, when no transaction is open. -/
theorem faithful_handle (time : Instant) (r : Request) :
    Faithful s sanitizer name w time r ((handle sanitizer time name r).perform s w) := by
  have hmeant {endpoint : Endpoint} {op : Operation} (h : r.LeadsTo (.service endpoint))
      (hmeans : endpoint.Means r op) : Shown name op (op.perform s sanitizer w)
        ((handle sanitizer time name r).perform s w) := by
    rw [handle_of_means sanitizer time name h hmeans]
    exact shown_handle s sanitizer name w op
  have hcases := handle_cases sanitizer time name r
  refine ⟨fun h => ?nowhere, fun h => ?health, fun endpoint h hnothing => ?meaningless,
    fun endpoint op => hmeant, fun hnone => ?answers, fun hget => ?looks,
    fun response hresponse hstatus => ?refuses⟩
  case nowhere =>
    rw [handle_of_nowhere sanitizer time name h]
    exact perform_pure s w hfree _
  case health =>
    rw [handle_of_health sanitizer time name h]
    exact perform_pure s w hfree _
  case meaningless =>
    obtain ⟨e, hkind, hhandle⟩ := handle_of_meaningless sanitizer time name h hnothing
    rw [hhandle]
    exact ⟨e, hkind, perform_pure s w hfree _⟩
  case answers =>
    obtain ⟨response, hhandle⟩ | ⟨endpoint, op, hleads, hmeans⟩ := hcases
    · rw [hhandle, perform_pure s w hfree]
      exact ⟨response, rfl⟩
    · exact (hmeant hleads hmeans).answers hfree hnone
  case looks =>
    obtain ⟨response, hhandle⟩ | ⟨endpoint, op, hleads, hmeans⟩ := hcases
    · rw [hhandle, perform_pure s w hfree]
    · have hlooks := perform_of_look s sanitizer op hfree (hmeans.looks hget hleads)
      exact (hmeant hleads hmeans).store_eq.trans (hlooks.trans hfree.symm)
  case refuses =>
    obtain ⟨response', hhandle⟩ | ⟨endpoint, op, hleads, hmeans⟩ := hcases
    · rw [hhandle, perform_pure s w hfree]
    · exact (hmeant hleads hmeans).refuses hfree hresponse hstatus

end

/-! ## Reachable worlds -/

/-- A world that operations and requests lead to, one after another. -/
inductive Reached : World → Prop
  | initial : Reached .initial
  | performed {w : World} (op : Operation) (h : Reached w) :
    Reached (op.perform s sanitizer w).2
  | handled {w : World} (time : Instant) (name : RequestId) (r : Request) (h : Reached w) :
    Reached ((handle sanitizer time name r).perform s w).2

variable {s sanitizer w}

/-- No transaction is left open. -/
theorem Reached.free (hw : Reached s sanitizer w) : ∃ t, w.store.Free t := by
  induction hw with
  | initial => exact ⟨.empty, rfl⟩
  | performed op _ ih =>
    obtain ⟨t, hfree⟩ := ih
    exact perform_free s sanitizer op hfree
  | @handled w time name r _ ih =>
    obtain ⟨t, hfree⟩ := ih
    obtain ⟨response, hhandle⟩ | ⟨endpoint, op, hleads, hmeans⟩ :=
      handle_cases sanitizer time name r
    · rw [hhandle, perform_pure s w hfree]
      exact ⟨t, hfree⟩
    · have hran := faithful_handle s sanitizer name w hfree time r
      rw [(hran.means endpoint op hleads hmeans).store_eq]
      exact perform_free s sanitizer op hfree

end Http

end Weblog

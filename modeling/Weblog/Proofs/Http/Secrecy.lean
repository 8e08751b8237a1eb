import Weblog.Http.Server
import Weblog.Proofs.Secrecy

/-!
# What callers see of errors

Callers see the status, the header fields and the text of a response (`Response.received`). The text
of an internal error makes no difference to them: neither in the answer that reports it nor, when
the store fails with it, in any answer of the server (`Server.serve_congr`). All else of an error
can be read off its answer.
-/

namespace Weblog.Http

/-! ## Responses -/

/-- A response as its caller sees it. -/
structure Received where
  status : Nat
  headers : Fields
  text : String
  deriving DecidableEq

namespace Response

def received (r : Response) : Received :=
  { status := r.status, headers := r.headers, text := r.body.toText }

/-- Callers see the same of two responses. -/
def Seen (r r' : Response) : Prop :=
  r.received = r'.received

/-- What callers see of a response stays the same when its header fields are changed. -/
theorem Seen.withHeaders {r r' : Response} (h : Seen r r') (f : Fields → Fields) :
    Seen { r with headers := f r.headers } { r' with headers := f r'.headers } := by
  unfold Seen at h
  have hchanged : ({ r.received with headers := f r.received.headers } : Received) =
      { r'.received with headers := f r'.received.headers } := by rw [h]
  exact hchanged

theorem Seen.setHeader {r r' : Response} (h : Seen r r') (name value : String) :
    Seen (r.setHeader name value) (r'.setHeader name value) :=
  h.withHeaders fun headers => headers.set name value

theorem Seen.secured {r r' : Response} (h : Seen r r') : Seen r.secured r'.secured :=
  h.withHeaders fun headers => securityFields.foldl Fields.setDefault headers

theorem seen_ofError {e f : Error} (h : e.disclosed = f.disclosed) :
    Seen (ofError e) (ofError f) := by
  have hdisclosed (e : Error) : (ofError e).received = (ofError e.disclosed).received := by
    cases e <;> rfl
  rw [Seen, hdisclosed, h, ← hdisclosed]

theorem seen_ofResult (op : Operation) {x y : Except Error Reply} (h : Agree x y) :
    Seen (ofResult op x) (ofResult op y) := by
  cases h with
  | ok reply => exact rfl
  | error he => exact seen_ofError he

end Response

open Response (Seen)

/-! ## Handlers -/

/-- Whatever the text of an internal error is, callers see the same of the responses of a script. -/
def Discreet (x : Script Response) : Prop :=
  x.Alike Seen x

theorem discreet_pure (r : Response) : Discreet (pure r) :=
  .done rfl

theorem Discreet.map {x : Script Response} {f : Response → Response} (h : Discreet x)
    (hf : ∀ r r', Seen r r' → Seen (f r) (f r')) : Discreet (f <$> x) :=
  Script.Alike.map h hf

theorem discreet_operation (sanitizer : Sanitizer) (name : RequestId) (op : Operation) :
    (op.handle sanitizer name).Discreet := by
  refine .bind (op.discreet sanitizer) fun reply => ?_
  cases op.achievement? reply with
  | none => exact .bind (.pure ()) fun _ => .pure reply
  | some what => exact .bind (.report _) fun _ => .pure reply

theorem discreet_handle (sanitizer : Sanitizer) (time : Instant) (name : RequestId) (r : Request) :
    Discreet (handle sanitizer time name r) := by
  unfold handle
  split
  · exact discreet_pure _
  · exact discreet_pure _
  · split
    · exact discreet_pure _
    · rename_i op _
      exact Script.Alike.map (discreet_operation sanitizer name op) fun _ _ h =>
        Response.seen_ofResult op h

theorem discreet_traced (o : Occasion) {handler : Handler} {r : Request}
    (h : Discreet (handler (r.name o.random) r)) : Discreet (traced o handler r) := by
  refine Script.Alike.bind h fun a b hab => .report _ _ (.done ?_)
  exact (hab.setHeader _ _).setHeader _ _

theorem discreet_guard (p : OriginPolicy) {handler : Request → Script Response} {r : Request}
    (h : Discreet (handler r)) : Discreet (p.guard handler r) := by
  unfold OriginPolicy.guard
  cases r.preflightMethod? with
  | some method => exact discreet_pure _
  | none =>
    cases p.checkOrigin r with
    | ok origin => exact h.map fun _ _ hseen => (hseen.setHeader _ _).setHeader _ _
    | error problem =>
      cases problem with
      | missingOrigin => exact h.map fun _ _ hseen => hseen.setHeader _ _
      | _ => exact discreet_pure _

namespace Server

theorem discreet_answer (server : Server) (o : Occasion) (r : Request) :
    Discreet (server.answer o r) := by
  refine discreet_guard server.policy (Discreet.map ?_ fun _ _ hseen => hseen.secured)
  exact discreet_traced o (discreet_handle server.sanitizer o.time _ r)

/-! ## Runs of the server -/

/-- What callers see of one request after another. A run that is not answered shows nothing but
that. -/
def serve (s : Surroundings) (server : Server) :
    List (Occasion × Request) → World → List (Outcome Received) × World
  | [], w => ([], w)
  | (o, r) :: rest, w =>
    let (outcome, w) := (Response.received <$> server.answer o r).perform s w
    let (outcomes, w) := serve s server rest w
    (outcome :: outcomes, w)

theorem serve_alike {s s' : Surroundings} (hs : s.Alike s') (server : Server)
    (requests : List (Occasion × Request)) {w w' : World} (hw : w.Alike w') :
    (server.serve s requests w).1 = (server.serve s' requests w').1 := by
  induction requests generalizing w w' with
  | nil => rfl
  | cons first rest ih =>
    obtain ⟨o, r⟩ := first
    have hsame : Script.Alike Eq (Response.received <$> server.answer o r)
        (Response.received <$> server.answer o r) :=
      Script.Alike.map (server.discreet_answer o r) fun _ _ hseen => hseen
    obtain ⟨houtcome, hworld⟩ := hsame.perform hs hw
    exact congrArg₂ List.cons houtcome.eq (ih hworld)

end Server

/-- Callers learn nothing internal of an error, and everything else: all internal errors look the
same, any other error can be told from all others and read off its answer, and what is answered to
any requests does not depend on the texts of the internal errors that the store fails with. -/
theorem errors_disclosed :
    (∀ text text' : String, (Response.ofError (.internal text)).received =
      (Response.ofError (.internal text')).received) ∧
    (∀ e f : Error, e.kind ≠ .internal ∨ f.kind ≠ .internal →
      (Response.ofError e).body.toText = (Response.ofError f).body.toText → e = f) ∧
    (∀ e : Error, Error.recover? (Response.ofError e).body.toText = some e.disclosed) ∧
    (∀ s s' : Surroundings, s.Alike s' → ∀ (server : Server)
      (requests : List (Occasion × Request)) (w : World),
      (server.serve s requests w).1 = (server.serve s' requests w).1) := by
  refine ⟨fun _ _ => Response.seen_ofError rfl, fun e f hkind htext => ?_,
    fun e => e.recover?_toText,
    fun s s' hs server requests w => server.serve_alike hs requests ⟨w.events, rfl⟩⟩
  have hdisclosed : e.disclosed = f.disclosed :=
    Error.disclosed_eq_of_toText_eq htext
  exact Error.eq_of_disclosed_eq hkind hdisclosed

/-- A store that fails at every access, with a text of its own. -/
def failing (text : String) : Surroundings where
  clock _ := .epoch
  ids := Uuid.ofNat
  faults _ _ := some (.fails (.internal text) [.beginFailed text])

theorem failing_alike (text text' : String) : (failing text).Alike (failing text') where
  clock := rfl
  ids := rfl
  faults _ _ := .fails (e := .internal text) (f := .internal text') rfl _ _

/-- Somebody publishes a post and looks at it. -/
def publishAndLook : List (Occasion × Request) :=
  let post := "/api/posts/00000000-0000-0000-0000-000000000001"
  let occasion : Occasion := ⟨.epoch, Uuid.ofNat 7, 3⟩
  [(occasion, ⟨"POST", post ++ "/publish", [], ""⟩), (occasion, ⟨"GET", post, [], ""⟩)]

/-- A server that lists no origins. -/
def plainServer : Server :=
  ⟨⟨[], [], [], 0⟩, Sanitizer.html⟩

theorem failures_undisclosed :
    (Response.ofError (.nameTaken "news")).body.toText ≠
      (Response.ofError (.invalidInput "news")).body.toText ∧
    (plainServer.serve (failing "disk full") publishAndLook .initial).1 =
      (plainServer.serve (failing "no route to host") publishAndLook .initial).1 := by
  refine ⟨fun htext => ?_, errors_disclosed.2.2.2 _ _ (failing_alike _ _) _ _ _⟩
  cases errors_disclosed.2.1 _ _ (.inl (by decide)) htext

end Weblog.Http

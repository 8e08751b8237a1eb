import Weblog.Http.Server
import Weblog.Proofs.Http.Front

/-!
# Which responses are tagged

* `Fields.get?_set_of_ne`, `Fields.get?_foldl_setDefault`: header fields of other names are kept,
  and defaults are added to fields that have none of their names.
* `guard_of_passes`, `answered_layers`: the layers of the server, and what a response through all of
  them is made of.
* `responses_tagged`: the response to a request that passes the check of origins has the name of the
  request, the time it took and the header fields that keep browsers careful. What is answered by
  the check itself has none of them, and `preflight_untagged` is such an answer.
-/

namespace Weblog.Http

/-! ## Header fields -/

namespace Fields

variable {fields : Fields} {name other value : String}

theorem isNamed_eq_true_iff {field : String × String} :
    isNamed name field = true ↔ field.1.toLower = name.toLower :=
  decide_eq_true_iff

/-- Fields of other names are kept when one is set. -/
theorem get?_set_of_ne (h : name.toLower ≠ other.toLower) :
    (fields.set name value).get? other = fields.get? other := by
  have hlast : isNamed other (name, value) = false := decide_eq_false h
  have hkept (field : String × String) :
      (!isNamed name field && isNamed other field) = isNamed other field := by
    cases hother : isNamed other field with
    | false => exact Bool.and_false _
    | true =>
      have hname : isNamed name field = false := by
        rw [isNamed_eq_true_iff] at hother
        exact decide_eq_false fun hname => h (hname.symm.trans hother)
      rw [hname]
      rfl
  simp [get?, set, List.find?_append, List.find?_filter, hkept, hlast]

theorem get?_eq_none_iff : fields.get? name = none ↔ fields.any (isNamed name) = false := by
  simp [get?]

/-- Fields of other names are kept when a default is added. -/
theorem get?_setDefault_of_ne {field : String × String} (h : field.1.toLower ≠ other.toLower) :
    (fields.setDefault field).get? other = fields.get? other := by
  have hlast : isNamed other field = false := decide_eq_false h
  unfold setDefault
  split
  · rfl
  · simp [get?, List.find?_append, hlast]

theorem get?_setDefault_self {field : String × String} (h : fields.get? field.1 = none) :
    (fields.setDefault field).get? field.1 = some field.2 := by
  have hself : isNamed field.1 field = true := isNamed_eq_true_iff.mpr rfl
  have hfind : fields.find? (isNamed field.1) = none := Option.map_eq_none_iff.mp h
  rw [setDefault, get?_eq_none_iff.mp h]
  simp [get?, List.find?_append, hfind, hself]

/-- Fields of other names are kept when defaults are added. -/
theorem get?_foldl_setDefault_of_ne {defaults : Fields}
    (h : ∀ field ∈ defaults, field.1.toLower ≠ other.toLower) :
    (defaults.foldl setDefault fields).get? other = fields.get? other := by
  induction defaults generalizing fields with
  | nil => rfl
  | cons field rest ih =>
    rw [List.foldl_cons, ih fun f hf => h f (List.mem_cons_of_mem _ hf)]
    exact get?_setDefault_of_ne (h field List.mem_cons_self)

/-- Defaults of different names are added to fields that have none of these names. -/
theorem get?_foldl_setDefault {defaults : Fields}
    (hnames : defaults.Pairwise fun f g => f.1.toLower ≠ g.1.toLower)
    (hnone : ∀ field ∈ defaults, fields.get? field.1 = none) :
    ∀ field ∈ defaults, (defaults.foldl setDefault fields).get? field.1 = some field.2 := by
  induction defaults generalizing fields with
  | nil => simp
  | cons first rest ih =>
    obtain ⟨hfirst, hrest⟩ := List.pairwise_cons.mp hnames
    intro field hfield
    rw [List.foldl_cons]
    rcases List.mem_cons.mp hfield with rfl | hmem
    · rw [get?_foldl_setDefault_of_ne fun g hg => (hfirst g hg).symm]
      exact get?_setDefault_self (hnone _ List.mem_cons_self)
    · refine ih hrest (fun g hg => ?_) field hmem
      rw [get?_setDefault_of_ne (hfirst g hg)]
      exact hnone g (List.mem_cons_of_mem _ hg)

end Fields

/-! ## Responses -/

/-- The names of the header fields that tag a response. -/
def tagNames : List String :=
  ["x-request-id", "server-timing"] ++ securityFields.map (·.1)

/-- The names of the other header fields that responses have. -/
def otherNames : List String :=
  ["content-type", "vary", "access-control-allow-origin", "access-control-allow-methods",
    "access-control-allow-headers", "access-control-max-age"]

theorem otherNames_ne :
    ∀ name ∈ otherNames, ∀ tag ∈ tagNames, name.toLower ≠ tag.toLower := by
  decide +kernel

theorem tagNames_pairwise : tagNames.Pairwise fun a b => a.toLower ≠ b.toLower := by
  decide +kernel

/-- A response is tagged: it has the name that the request was given, or else the identifier made
for it, the time that it took, and the fields that keep browsers careful. -/
structure Tagged (o : Occasion) (r : Request) (response : Response) : Prop where
  given : ∀ text, r.headers.get? "x-request-id" = some text → text.toList.all isReadable = true →
    response.headers.get? "x-request-id" = some text
  generated : (∀ text, r.headers.get? "x-request-id" = some text →
      text.toList.all isReadable = false) →
    response.headers.get? "x-request-id" = some o.random.toText
  timed : response.headers.get? "server-timing" =
    some ("app;dur=" ++ String.ofList (Text.decimal o.millis))
  secured : ∀ field ∈ securityFields, response.headers.get? field.1 = some field.2

/-- A response has no field that tags it. -/
def Untagged (response : Response) : Prop :=
  ∀ name ∈ tagNames, response.headers.get? name = none

theorem untagged_of_names {response : Response}
    (h : ∀ field ∈ response.headers, field.1 ∈ otherNames) : Untagged response := by
  intro tag htag
  refine Option.map_eq_none_iff.mpr (List.find?_eq_none.mpr fun field hfield => ?_)
  rw [Fields.isNamed_eq_true_iff]
  exact otherNames_ne field.1 (h field hfield) tag htag

theorem Untagged.setHeader {response : Response} (h : Untagged response) {name : String}
    (hname : name ∈ otherNames) (value : String) : Untagged (response.setHeader name value) :=
  fun tag htag => (Fields.get?_set_of_ne (otherNames_ne name hname tag htag)).trans (h tag htag)

theorem Untagged.withVary {response : Response} (h : Untagged response) :
    Untagged response.withVary :=
  h.setHeader (by decide) _

theorem untagged_of (status : Nat) (body : Body) : Untagged (.of status body) := by
  refine untagged_of_names fun field hfield => ?_
  obtain ⟨value, -, rfl⟩ := List.mem_map.mp hfield
  exact List.mem_cons_self

theorem OriginPolicy.untagged_allowance (p : OriginPolicy) (origin : String) :
    Untagged (p.allowance origin) := by
  refine Untagged.withVary (untagged_of_names fun field hfield => ?_)
  have hnames : ∀ name ∈ ["access-control-allow-origin", "access-control-allow-methods",
      "access-control-allow-headers", "access-control-max-age"], name ∈ otherNames := by
    decide
  exact hnames field.1 (List.mem_map_of_mem (f := (·.1)) hfield)

theorem Untagged.not_tagged {o : Occasion} {r : Request} {response : Response}
    (h : Untagged response) : ¬ Tagged o r response := by
  intro htagged
  cases htagged.timed.symm.trans (h "server-timing" (by decide))

theorem Tagged.setHeader {o : Occasion} {r : Request} {response : Response}
    (h : Tagged o r response) {name : String} (hname : name ∈ otherNames) (value : String) :
    Tagged o r (response.setHeader name value) := by
  have hkept : ∀ tag ∈ tagNames,
      (response.setHeader name value).headers.get? tag = response.headers.get? tag :=
    fun tag htag => Fields.get?_set_of_ne (otherNames_ne name hname tag htag)
  have hid := hkept "x-request-id" (by decide)
  have htiming := hkept "server-timing" (by decide)
  exact {
    given text htext hreadable := hid.trans (h.given text htext hreadable)
    generated hnone := hid.trans (h.generated hnone)
    timed := htiming.trans h.timed
    secured field hfield := by
      refine (hkept field.1 ?_).trans (h.secured field hfield)
      exact List.mem_append_right _ (List.mem_map_of_mem hfield) }

/-- Tracing and the careful fields tag a response that has no tags. -/
theorem Untagged.tagged {response : Response} (h : Untagged response) (o : Occasion) (r : Request) :
    Tagged o r (response.tagged (r.name o.random) o.millis).secured := by
  -- the names of the tags, one after another
  obtain ⟨hrequest, hrest⟩ := List.pairwise_cons.mp tagNames_pairwise
  obtain ⟨htiming, hsecurity⟩ := List.pairwise_cons.mp hrest
  have hdistinct : securityFields.Pairwise fun f g => f.1.toLower ≠ g.1.toLower :=
    List.pairwise_map (R := fun a b : String => a.toLower ≠ b.toLower).mp hsecurity
  have hsecured (name : String) (hname : ∀ tag ∈ securityFields.map (·.1),
      name.toLower ≠ tag.toLower) :
      (response.tagged (r.name o.random) o.millis).secured.headers.get? name =
        (response.tagged (r.name o.random) o.millis).headers.get? name :=
    Fields.get?_foldl_setDefault_of_ne fun field hfield =>
      (hname field.1 (List.mem_map_of_mem hfield)).symm
  have hid : (response.tagged (r.name o.random) o.millis).secured.headers.get? "x-request-id" =
      some (r.name o.random).text := by
    rw [hsecured _ fun tag htag => hrequest tag (List.mem_cons_of_mem _ htag)]
    have hne := hrequest "server-timing" List.mem_cons_self
    exact (Fields.get?_set_of_ne hne.symm).trans (Fields.get?_set _ _ _)
  refine ⟨fun text htext hreadable => ?given, fun hnone => ?generated, ?timed,
    Fields.get?_foldl_setDefault hdistinct fun field hfield => ?secured⟩
  case given =>
    have hname : r.readable? "x-request-id" = some text := by
      rw [Request.readable?, htext, Option.filter_some, if_pos hreadable]
    rw [hid, Request.name, hname]
    rfl
  case generated =>
    have hname : r.readable? "x-request-id" = none := by
      refine Option.filter_eq_none_iff.mpr fun text htext => ?_
      rw [hnone text htext]
      decide
    rw [hid, Request.name, hname]
    rfl
  case timed =>
    rw [hsecured _ htiming]
    exact Fields.get?_set _ _ _
  case secured =>
    have htag : field.1 ∈ securityFields.map (·.1) := List.mem_map_of_mem hfield
    calc
      (response.tagged (r.name o.random) o.millis).headers.get? field.1
      _ = (response.setHeader "x-request-id" (r.name o.random).text).headers.get? field.1 :=
        Fields.get?_set_of_ne (htiming field.1 htag)
      _ = response.headers.get? field.1 :=
        Fields.get?_set_of_ne (hrequest field.1 (List.mem_cons_of_mem _ htag))
      _ = none := h field.1 (List.mem_append_right _ htag)

/-! ## Layers -/

section

variable {s : Surroundings} {w : World} {r : Request} {response : Response}

/-- The service itself does not tag what it answers. -/
theorem untagged_handle {sanitizer : Sanitizer} {time : Instant} {name : RequestId}
    (h : ((handle sanitizer time name r).run s w).1 = .answered response) :
    Untagged response := by
  unfold handle at h
  split at h
  · cases h
    exact untagged_of _ _
  · cases h
    exact untagged_of _ _
  · split at h
    · cases h
      exact untagged_of _ _
    · obtain ⟨result, -, rfl⟩ := (Script.answered_map s).mp h
      cases result <;> exact untagged_of _ _

/-- A traced response is that of the handler with the tags of the request. -/
theorem answered_traced {o : Occasion} {handler : Handler} :
    ((traced o handler r).run s w).1 = .answered response ↔
      ∃ inner, ((handler (r.name o.random) r).run s w).1 = .answered inner ∧
        inner.tagged (r.name o.random) o.millis = response := by
  have htraced : (traced o handler r).run s w = _ :=
    Script.run_bind s (handler (r.name o.random) r) _ w
  rw [htraced]
  rcases (handler (r.name o.random) r).run s w with ⟨inner | m | _, w'⟩
  · change Outcome.answered _ = _ ↔ _
    simp
  · simp
  · simp

/-- What a response through all layers is made of. -/
theorem answered_layers {o : Occasion} {handler : Handler} {f : Response → Response} :
    ((f <$> Response.secured <$> traced o handler r).perform s w).1 = .answered response ↔
      ∃ inner, ((handler (r.name o.random) r).run s w).1 = .answered inner ∧
        f (inner.tagged (r.name o.random) o.millis).secured = response := by
  change (Script.run s _ w).1 = _ ↔ _
  simp only [Script.answered_map, answered_traced]
  constructor
  · rintro ⟨_, ⟨_, ⟨inner, hinner, rfl⟩, rfl⟩, rfl⟩
    exact ⟨inner, hinner, rfl⟩
  · rintro ⟨inner, hinner, rfl⟩
    exact ⟨_, ⟨_, ⟨inner, hinner, rfl⟩, rfl⟩, rfl⟩

/-- A request passes the check of origins: it is no preflight, and if it names an origin, that is
one of those that are allowed. -/
def Request.Passes (r : Request) (origins : List String) : Prop :=
  r.preflightMethod? = none ∧ ∀ origin, r.headers.get? "origin" = some origin → origin ∈ origins

/-- What passes the check goes on, and its response keeps its tags. -/
theorem OriginPolicy.guard_of_passes {p : OriginPolicy} (h : r.Passes p.origins)
    (handler : Request → Script Response) :
    ∃ f : Response → Response, (∀ o response, Tagged o r response → Tagged o r (f response)) ∧
      p.guard handler r = f <$> handler r := by
  obtain ⟨hpreflight, horigins⟩ := h
  have hvary {o : Occasion} {response : Response} (h : Tagged o r response) :
      Tagged o r response.withVary := h.setHeader (by decide) _
  unfold guard checkOrigin
  rw [hpreflight]
  cases horigin : r.headers.get? "origin" with
  | none => exact ⟨Response.withVary, fun _ _ => hvary, rfl⟩
  | some origin =>
    refine ⟨fun response => (response.setHeader "access-control-allow-origin" origin).withVary,
      fun _ _ h => hvary (h.setHeader (by decide) _), ?_⟩
    simp only [if_pos (horigins origin horigin)]

/-- What does not pass the check is answered by it. -/
theorem OriginPolicy.guard_of_not_passes {p : OriginPolicy} (h : ¬ r.Passes p.origins)
    (handler : Request → Script Response) :
    ∃ response, Untagged response ∧ p.guard handler r = pure response := by
  unfold guard
  cases hpreflight : r.preflightMethod? with
  | some method =>
    refine ⟨p.preflight method r, ?_, rfl⟩
    unfold preflight
    split
    · exact p.untagged_allowance _
    · exact untagged_of _ _
  | none =>
    cases horigin : r.headers.get? "origin" with
    | none => exact absurd ⟨hpreflight, fun origin h => by cases h.symm.trans horigin⟩ h
    | some origin =>
      have hforeign : origin ∉ p.origins := by
        refine fun hmem => h ⟨hpreflight, fun other hother => ?_⟩
        cases hother.symm.trans horigin
        exact hmem
      refine ⟨OriginProblem.originNotAllowed.response.withVary, (untagged_of _ _).withVary, ?_⟩
      simp only [checkOrigin, horigin, if_neg hforeign]

end

/-! ## The server -/

/-- **Tags.** The response of a server to a request that passes the check of origins is tagged, and
there is one unless a fault strikes. Every other request is answered by the check alone: its
response is not tagged, and nothing else happens. -/
theorem responses_tagged {binds : String → Nat → Bool} {c : Config} {sanitizer : Sanitizer}
    {server : Server} (hstart : Server.start binds c sanitizer = .ok server) (s : Surroundings)
    {w : World} {t : Tables} (hfree : w.store.Free t) (o : Occasion) (r : Request) :
    let ran := (server.answer o r).perform s w
    (r.Passes c.corsOrigins →
      (∀ response, ran.1 = .answered response → Tagged o r response) ∧
        ((∀ m n, s.faults m n = none) → ∃ response, ran.1 = .answered response)) ∧
      (¬ r.Passes c.corsOrigins →
        ∃ response, Untagged response ∧ ran = (.answered response, w)) := by
  intro ran
  obtain rfl : { policy := Server.policyOf c, sanitizer } = server := by
    unfold Server.start at hstart
    split at hstart
    · exact Except.ok.inj hstart
    · cases hstart
  constructor
  · intro hpasses
    obtain ⟨f, hf, hguard⟩ := OriginPolicy.guard_of_passes (p := Server.policyOf c) hpasses
      fun r => Response.secured <$> traced o (handle sanitizer o.time) r
    have hran : ran =
        (f <$> Response.secured <$> traced o (handle sanitizer o.time) r).perform s w :=
      congrArg (fun script => Script.perform s script w) hguard
    rw [hran]
    constructor
    · intro response hresponse
      obtain ⟨untagged, huntagged, rfl⟩ := answered_layers.mp hresponse
      exact hf o _ ((untagged_handle huntagged).tagged o r)
    · intro hnone
      obtain ⟨untagged, huntagged⟩ :=
        (faithful_handle s sanitizer (r.name o.random) w hfree o.time r).answers hnone
      exact ⟨_, answered_layers.mpr ⟨untagged, huntagged, rfl⟩⟩
  · intro hstops
    obtain ⟨response, huntagged, hguard⟩ :=
      OriginPolicy.guard_of_not_passes (p := Server.policyOf c) hstops
        fun r => Response.secured <$> traced o (handle sanitizer o.time) r
    refine ⟨response, huntagged, ?_⟩
    have hran : ran = (pure response : Script Response).perform s w :=
      congrArg (fun script => Script.perform s script w) hguard
    rw [hran]
    exact perform_pure s w hfree response

/-- A server whose pages come from one origin. -/
def singleOrigin : Config where
  host := "127.0.0.1"
  port := 8080
  storage := .memory
  databaseUrl := none
  databaseMaxConnections := 20
  logFilter := "info"
  logFormat := .json
  corsOrigins := ["http://a.test"]

/-- A request that has a name keeps it, wherever it leads. -/
theorem given_name_kept :
    let server : Server := { policy := Server.policyOf singleOrigin, sanitizer := .identity }
    let o : Occasion := { time := .epoch, random := .ofNat 7, millis := 5 }
    let r : Request :=
      { method := "GET", target := "/nowhere", headers := [("x-request-id", "abc")], body := "" }
    ∃ response, ((server.answer o r).perform (.undisturbed (fun _ => .epoch) .ofNat) .initial).1 =
      .answered response ∧ response.headers.get? "x-request-id" = some "abc" := by
  intro server o r
  have hstart : Server.start (fun _ _ => true) singleOrigin .identity = .ok server := rfl
  have hpreflight : r.preflightMethod? = none := by decide +kernel
  have horigin : r.headers.get? "origin" = none := by decide +kernel
  have hname : r.headers.get? "x-request-id" = some "abc" := by
    simp [r, Fields.get?, Fields.isNamed]
  obtain ⟨htagged, hanswers⟩ :=
    (responses_tagged hstart (.undisturbed (fun _ => .epoch) .ofNat) (w := .initial) rfl o r).1
      ⟨hpreflight, fun origin h => by cases h.symm.trans horigin⟩
  obtain ⟨response, hresponse⟩ := hanswers fun _ _ => rfl
  exact ⟨response, hresponse, (htagged response hresponse).given "abc" hname (by decide)⟩

/-- Neither the answer to a preflight of an allowed origin nor the refusal of another origin is
tagged. -/
theorem preflight_untagged :
    let server : Server := { policy := Server.policyOf singleOrigin, sanitizer := .identity }
    let s : Surroundings := .undisturbed (fun _ => .epoch) .ofNat
    let o : Occasion := { time := .epoch, random := .ofNat 7, millis := 5 }
    let preflight : Request :=
      { method := "OPTIONS", target := "/api/posts", body := ""
        headers := [("access-control-request-method", "GET"), ("origin", "http://a.test")] }
    let foreign : Request :=
      { method := "GET", target := "/api/health", body := ""
        headers := [("origin", "http://b.test")] }
    Server.start (fun _ _ => true) singleOrigin .identity = .ok server ∧
      ∀ r ∈ [preflight, foreign], ∃ response,
        ((server.answer o r).perform s .initial).1 = .answered response ∧
          ¬ Tagged o r response := by
  intro server s o preflight foreign
  have hstops : ∀ r ∈ [preflight, foreign], ¬ r.Passes server.policy.origins := by
    intro r hr hpasses
    rcases List.mem_cons.mp hr with rfl | hr
    · have hmethod : preflight.headers.get? "access-control-request-method" = some "GET" := by
        simp [preflight, Fields.get?, Fields.isNamed]
      have hpreflight : preflight.preflightMethod? = some "GET" := by
        rw [Request.preflightMethod?, if_pos rfl, hmethod]
        rfl
      cases hpreflight.symm.trans hpasses.1
    · obtain rfl := List.mem_singleton.mp hr
      have horigin : foreign.headers.get? "origin" = some "http://b.test" := by
        simp [foreign, Fields.get?, Fields.isNamed]
      exact absurd (hpasses.2 _ horigin) (by decide)
  refine ⟨rfl, fun r hr => ?_⟩
  obtain ⟨response, huntagged, hguard⟩ := OriginPolicy.guard_of_not_passes (hstops r hr)
    fun r => Response.secured <$> traced o (handle server.sanitizer o.time) r
  refine ⟨response, congrArg (fun script => (Script.perform s script .initial).1) hguard, ?_⟩
  exact huntagged.not_tagged

end Weblog.Http

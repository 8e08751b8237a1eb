import Weblog.Http.Route

/-!
# What requests ask for

The addresses of the service as a relation (`Leads`), and what a request means at each of them
(`Endpoint.Means`): an operation, whose identifier stands in the path and whose record is the body.

* `Route.of?_eq_some_iff`: routing follows the relation, and a request leads to one route at most.
* `Endpoint.operation_eq_ok_iff`: the operation that is read is the one that is meant.
* `Endpoint.kind_of_operation`: what means nothing is refused as invalid input.
-/

namespace Weblog.Http

open Text

/-! ## Addresses -/

/-- Where a method and the segments of a path lead. An identifier is any segment that is not
empty. -/
inductive Leads : String → List String → Route → Prop
  | health : Leads "GET" ["api", "health"] .health
  | createPost : Leads "POST" ["api", "posts"] (.service .createPost)
  | getVersion {id : String} (hid : id ≠ "") :
    Leads "GET" ["api", "posts", "versions", id] (.service (.getVersion id))
  | getPost {id : String} (hid : id ≠ "") :
    Leads "GET" ["api", "posts", id] (.service (.getPost id))
  | updatePost {id : String} (hid : id ≠ "") :
    Leads "PUT" ["api", "posts", id] (.service (.updatePost id))
  | deleteDraft {id : String} (hid : id ≠ "") :
    Leads "DELETE" ["api", "posts", id] (.service (.deleteDraft id))
  | publishPost {id : String} (hid : id ≠ "") :
    Leads "POST" ["api", "posts", id, "publish"] (.service (.publishPost id))
  | createCategory : Leads "POST" ["api", "categories"] (.service .createCategory)
  | attach : Leads "POST" ["api", "categories", "attach"] (.service .attach)
  | getCategory {id : String} (hid : id ≠ "") :
    Leads "GET" ["api", "categories", id] (.service (.getCategory id))
  | updateCategory {id : String} (hid : id ≠ "") :
    Leads "PUT" ["api", "categories", id] (.service (.updateCategory id))

theorem Route.withId_eq_some {endpoint : String → Endpoint} {id : String} {route : Route} :
    Route.withId endpoint id = some route ↔ id ≠ "" ∧ route = .service (endpoint id) := by
  unfold Route.withId
  split
  · rename_i hempty
    simp [hempty]
  · rename_i hne
    simp [hne, eq_comm]

/-- Routing follows the addresses. -/
theorem Route.of?_eq_some_iff {method : String} {segments : List String} {route : Route} :
    Route.of? method segments = some route ↔ Leads method segments route := by
  constructor
  · intro h
    unfold Route.of? at h
    split at h
    case h_12 => cases h
    -- the addresses without an identifier
    case h_1 | h_2 | h_8 | h_9 =>
      cases h
      constructor
    all_goals
      obtain ⟨hid, rfl⟩ := Route.withId_eq_some.mp h
      constructor
      exact hid
  · intro h
    cases h with
    | health | createPost | createCategory | attach => rfl
    | getVersion hid | getPost hid | updatePost hid | deleteDraft hid | publishPost hid
    | getCategory hid | updateCategory hid => simp [Route.of?, Route.withId, hid]

/-- A request is led along a route by its method and its path. -/
def Request.LeadsTo (r : Request) (route : Route) : Prop :=
  ∃ segments, segments? r.target = some segments ∧ Leads r.method segments route

theorem Request.route?_eq_some_iff {r : Request} {route : Route} :
    r.route? = some route ↔ r.LeadsTo route := by
  simp only [Request.route?, Option.bind_eq_some_iff, Route.of?_eq_some_iff, LeadsTo]

/-! ## Contents -/

section

variable {α β : Type}

private theorem bind_eq_ok {x : Except Error α} {f : α → Except Error β} {b : β} :
    x >>= f = .ok b ↔ ∃ a, x = .ok a ∧ f a = .ok b := by
  cases x with
  | error e => simp [bind, Except.bind]
  | ok a => simp [bind, Except.bind]

private theorem bind_eq_error {x : Except Error α} {f : α → Except Error β} {e : Error} :
    x >>= f = .error e ↔ x = .error e ∨ ∃ a, x = .ok a ∧ f a = .error e := by
  cases x with
  | error e' => simp [bind, Except.bind]
  | ok a => simp [bind, Except.bind]

/-- A segment of a path is a text of an identifier, with all percent signs resolved. -/
def Names (segment : String) (id : Uuid) : Prop :=
  Uuid.ofText? (String.ofList (resolve [] segment.toList)) = some id

/-- The body of a request is accepted as a record: it is declared to be JSON, it is not too large,
and it reads as the record. -/
structure Request.Carries [Record α] (r : Request) (x : α) : Prop where
  isJson : r.isJson = true
  size : r.body.utf8ByteSize ≤ maxSize
  text : Record.ofText r.body = .ok x

theorem readId_eq_ok_iff {segment : String} {id : Uuid} :
    readId segment = .ok id ↔ Names segment id := by
  unfold readId Names
  split <;> simp [*]

theorem Request.content_eq_ok_iff [Record α] {r : Request} {x : α} :
    r.content = .ok x ↔ r.Carries x := by
  unfold content
  constructor
  · intro h
    split at h
    · cases h
    · rename_i hjson
      split at h
      · cases h
      · rename_i hsize
        refine ⟨by simpa using hjson, Nat.le_of_not_lt hsize, ?_⟩
        cases htext : (Record.ofText r.body : Except Record.Problem α) with
        | error p =>
          rw [htext] at h
          cases h
        | ok y =>
          rw [htext] at h
          cases h
          rfl
  · rintro ⟨hjson, hsize, htext⟩
    rw [hjson, htext, if_neg (by decide), if_neg (Nat.not_lt.mpr hsize)]
    rfl

theorem Request.argument_eq_ok_iff [Record α] {r : Request} {x : α} :
    r.argument = .ok x ↔ r.Carries x := by
  rw [← content_eq_ok_iff, argument]
  cases hcontent : (r.content : Except ContentProblem α) with
  | error p =>
    constructor
    · intro h
      cases h
    · intro h
      cases h
  | ok y =>
    constructor
    · intro h
      cases h
      rfl
    · intro h
      cases h
      rfl

/-! ## Operations -/

/-- What a request means at an endpoint. -/
inductive Endpoint.Means (r : Request) : Endpoint → Operation → Prop
  | createPost {x : CreatePost} (hbody : r.Carries x) : Means r .createPost (.createPost x)
  | updatePost {segment : String} {id : Uuid} {x : UpdatePost} (hid : Names segment id)
    (hbody : r.Carries x) : Means r (.updatePost segment) (.updatePost id x)
  | publishPost {segment : String} {id : Uuid} (hid : Names segment id) :
    Means r (.publishPost segment) (.publishPost id)
  | deleteDraft {segment : String} {id : Uuid} (hid : Names segment id) :
    Means r (.deleteDraft segment) (.deleteDraft id)
  | getPost {segment : String} {id : Uuid} (hid : Names segment id) :
    Means r (.getPost segment) (.getPost id)
  | getVersion {segment : String} {id : Uuid} (hid : Names segment id) :
    Means r (.getVersion segment) (.getVersion id)
  | createCategory {x : NameCategory} (hbody : r.Carries x) :
    Means r .createCategory (.createCategory x)
  | updateCategory {segment : String} {id : Uuid} {x : NameCategory} (hid : Names segment id)
    (hbody : r.Carries x) : Means r (.updateCategory segment) (.updateCategory id x)
  | getCategory {segment : String} {id : Uuid} (hid : Names segment id) :
    Means r (.getCategory segment) (.getCategory id)
  | attach {x : AttachCategories} (hbody : r.Carries x) : Means r .attach (.attach x)

variable {r : Request} {endpoint : Endpoint}

/-- The operation that is read is the one that is meant. -/
theorem Endpoint.operation_eq_ok_iff {op : Operation} :
    endpoint.operation r = .ok op ↔ endpoint.Means r op := by
  constructor
  · intro h
    cases endpoint <;>
      simp only [operation, bind_eq_ok, readId_eq_ok_iff, Request.argument_eq_ok_iff] at h
    case createPost | createCategory | attach =>
      obtain ⟨x, hbody, hop⟩ := h
      cases hop
      constructor
      exact hbody
    case updatePost | updateCategory =>
      obtain ⟨id, hid, x, hbody, hop⟩ := h
      cases hop
      constructor
      · exact hid
      · exact hbody
    all_goals
      obtain ⟨id, hid, hop⟩ := h
      cases hop
      constructor
      exact hid
  · intro h
    cases h with
    | createPost hbody | createCategory hbody | attach hbody =>
      exact bind_eq_ok.mpr ⟨_, Request.argument_eq_ok_iff.mpr hbody, rfl⟩
    | updatePost hid hbody | updateCategory hid hbody =>
      refine bind_eq_ok.mpr ⟨_, readId_eq_ok_iff.mpr hid, ?_⟩
      exact bind_eq_ok.mpr ⟨_, Request.argument_eq_ok_iff.mpr hbody, rfl⟩
    | publishPost hid | deleteDraft hid | getPost hid | getVersion hid | getCategory hid =>
      exact bind_eq_ok.mpr ⟨_, readId_eq_ok_iff.mpr hid, rfl⟩

theorem kind_of_readId {segment : String} {e : Error} (h : readId segment = .error e) :
    e.kind = .invalidInput := by
  unfold readId at h
  split at h
  · cases h
  · cases h
    rfl

theorem Request.kind_of_argument [Record α] {e : Error}
    (h : (r.argument : Except Error α) = .error e) : e.kind = .invalidInput := by
  unfold argument at h
  cases hcontent : (r.content : Except ContentProblem α) with
  | ok x =>
    rw [hcontent] at h
    cases h
  | error p =>
    rw [hcontent] at h
    cases h
    rfl

/-- What means nothing is refused as invalid input. -/
theorem Endpoint.kind_of_operation {e : Error} (h : endpoint.operation r = .error e) :
    e.kind = .invalidInput := by
  cases endpoint <;> simp only [operation, bind_eq_error] at h
  case createPost | createCategory | attach =>
    rcases h with h | ⟨x, -, h⟩
    · exact Request.kind_of_argument h
    · cases h
  case updatePost | updateCategory =>
    rcases h with h | ⟨id, -, h | ⟨x, -, h⟩⟩
    · exact kind_of_readId h
    · exact Request.kind_of_argument h
    · cases h
  all_goals
    rcases h with h | ⟨id, -, h⟩
    · exact kind_of_readId h
    · cases h

end

end Weblog.Http

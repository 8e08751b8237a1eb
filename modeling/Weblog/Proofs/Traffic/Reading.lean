import Weblog.Proofs.Categorized
import Weblog.Proofs.Traffic.Ordering

/-!
# Posts that are shown while others change them

A request for a post asks the store twice, for the row of the post and for the categories of the
version in the row, and other requests may commit in between. What it shows is a row of one moment
and categories of another, both while it was served (`post_shown_between`). It is what one moment
would show, unless a request in between changed the row and that one or a later one the categories
(`Answered.Torn`). Then what is shown may never have been (`post_torn`).
-/

namespace Weblog

/-! ## What others change -/

namespace Answered

/-- The request, served after others, made a difference to what is asked of the tables. -/
def Alters {α : Type} (sanitizer : Sanitizer) (before : List Answered) (d : Answered)
    (f : Tables → α) : Prop :=
  f (again sanitizer (before ++ [d])).2.store.tables ≠ f (again sanitizer before).2.store.tables

/-- The request succeeded in editing or publishing a post or deleting its draft. -/
def ChangesPost (d : Answered) (post : Uuid) : Prop :=
  (∃ reply, d.answer = .ok reply) ∧
    ((∃ r, d.op = .updatePost post r) ∨ d.op = .publishPost post ∨ d.op = .deleteDraft post)

/-- The request succeeded in what can change the categories of a version of a post when it is in the
given ones. -/
def Recategorizes (d : Answered) (post version : Uuid) (categories : List Uuid) : Prop :=
  ∃ reply, d.answer = .ok reply ∧ d.op.Recategorizes post version categories reply

/-- Of some requests, served after others, one changed the row that is shown of a post, and the same
one or a later one changed the categories of a version. -/
def Torn (sanitizer : Sanitizer) (before done : List Answered) (post version : Uuid) : Prop :=
  ∃ front d rest middle d' back, done = front ++ d :: rest ∧ d :: rest = middle ++ d' :: back ∧
    d.ChangesPost post ∧ d.Alters sanitizer (before ++ front) (·.currentPost? post) ∧
    d'.Recategorizes post version
      (((again sanitizer (before ++ front ++ middle)).2.store.tables.categoriesOf version).map
        (·.id)) ∧
    d'.Alters sanitizer (before ++ front ++ middle) (·.categoriesOf version)

variable {sanitizer : Sanitizer} {d : Answered} {t : Tables} {b : Blog} {id : Uuid}
  {row : CurrentPost}

/-- Only a change of the post changes its row. -/
theorem Fits.currentPost? (h : d.Fits sanitizer t) (hr : Represents t b)
    (hrow : t.currentPost? id = some row) :
    (d.effect sanitizer t).tables.currentPost? id = some row ∨ d.ChangesPost id := by
  obtain ⟨answer?, b', hstepped, hanswers, hr'⟩ := h.stepped hr
  rw [hr.currentPost?_eq] at hrow
  rw [hr'.currentPost?_eq]
  have hother {post : Uuid} (h' : History) (hne : id ≠ post) :
      ((b.put post h').get? id).bind (fun h => (h.shown? id).map fun v => .of (h.post id) v) =
        some row := by
    rw [b.get?_put, if_neg hne]
    exact hrow
  obtain ⟨op, answer, times, ids⟩ := d
  cases hstepped with
  | spare hspares => exact .inl hrow
  | refused => exact .inl hrow
  | start hd hgiven hget hunused =>
    refine .inl (hother _ ?_)
    rintro rfl
    rw [hget] at hrow
    cases hrow
  | @amend post r =>
    by_cases hpost : id = post
    · exact .inr ⟨⟨_, hanswers _ rfl⟩, .inl ⟨r, hpost ▸ rfl⟩⟩
    · exact .inl (hother _ hpost)
  | @stack post r =>
    by_cases hpost : id = post
    · exact .inr ⟨⟨_, hanswers _ rfl⟩, .inl ⟨r, hpost ▸ rfl⟩⟩
    · exact .inl (hother _ hpost)
  | @publish post =>
    by_cases hpost : id = post
    · exact .inr ⟨⟨_, hanswers _ rfl⟩, .inr (.inl (hpost ▸ rfl))⟩
    · exact .inl (hother _ hpost)
  | @drop post =>
    by_cases hpost : id = post
    · exact .inr ⟨⟨_, hanswers _ rfl⟩, .inr (.inr (hpost ▸ rfl))⟩
    · exact .inl (hother _ hpost)

theorem wellFormed_effect (sanitizer : Sanitizer) (d : Answered) (hwf : t.WellFormed) :
    (d.effect sanitizer t).tables.WellFormed :=
  effect_wellFormed sanitizer _ _ d.op hwf

/-- Only what is about the categories of a version changes them. -/
theorem Fits.recategorizes (h : d.Fits sanitizer t) (hwf : t.WellFormed) {post version : Uuid}
    (hplaced : t.Places version post)
    (halters : (d.effect sanitizer t).tables.categoriesOf version ≠ t.categoriesOf version) :
    d.Recategorizes post version ((t.categoriesOf version).map (·.id)) := by
  cases hanswer : d.answer with
  | error e =>
    rw [h.tables_of_error hanswer] at halters
    exact absurd rfl halters
  | ok reply =>
    have htransition := effect_transition hwf (h.answer.trans hanswer)
    have hwf' := d.wellFormed_effect sanitizer hwf
    exact ⟨reply, hanswer, (htransition.categoriesOf hwf hwf' hplaced).resolve_left halters⟩

theorem Fits.places (h : d.Fits sanitizer t) (hwf : t.WellFormed) {post version : Uuid}
    (hplaced : t.Places version post)
    (hsame : (d.effect sanitizer t).tables.categoriesOf version = t.categoriesOf version) :
    (d.effect sanitizer t).tables.Places version post := by
  cases hanswer : d.answer with
  | error e =>
    rw [h.tables_of_error hanswer]
    exact hplaced
  | ok reply =>
    exact (effect_transition hwf (h.answer.trans hanswer)).places hwf hplaced hsame

end Answered

namespace Serial

variable {sanitizer : Sanitizer} {t t' : Tables} {b : Blog} {done : List Answered}

theorem wellFormed (h : Serial sanitizer t done t') (hwf : t.WellFormed) : t'.WellFormed := by
  induction h with
  | nil => exact hwf
  | @cons _ _ d _ _ _ ih => exact ih (d.wellFormed_effect sanitizer hwf)

theorem alters {d : Answered} (h : Serial sanitizer .empty done t) (hfits : d.Fits sanitizer t)
    {α : Type} {f : Tables → α} (hne : f (d.effect sanitizer t).tables ≠ f t) :
    d.Alters sanitizer done f := by
  unfold Answered.Alters
  rw [h.again_eq.2, (h.append (single hfits)).again_eq.2]
  exact hne

/-- What is asked of the tables stays until a request alters it. What holds at the start and is kept
as long as nothing is altered holds up to there. -/
theorem altered {α : Type} (h : Serial sanitizer t done t') (f : Tables → α)
    (P : Tables → Prop) (hP : P t)
    (hkept : ∀ (d : Answered) t, P t → d.Fits sanitizer t →
      f (d.effect sanitizer t).tables = f t → P (d.effect sanitizer t).tables) :
    f t' = f t ∨ ∃ front d back t₁, done = front ++ d :: back ∧ Serial sanitizer t front t₁ ∧
      P t₁ ∧ f t₁ = f t ∧ d.Fits sanitizer t₁ ∧ f (d.effect sanitizer t₁).tables ≠ f t₁ ∧
      Serial sanitizer t₁ (d :: back) t' := by
  induction h with
  | nil => exact .inl rfl
  | @cons t t' d rest hfits hrest ih =>
    by_cases hsame : f (d.effect sanitizer t).tables = f t
    · rcases ih (hkept d t hP hfits hsame) with
        hlater | ⟨front, e, back, t₁, rfl, hfront, hP₁, hsame₁, hfits₁, halters, hback⟩
      · exact .inl (hlater.trans hsame)
      · exact .inr ⟨d :: front, e, back, t₁, rfl, .cons hfits hfront, hP₁, hsame₁.trans hsame,
          hfits₁, halters, hback⟩
    · exact .inr ⟨[], d, rest, t, rfl, .nil, hP, rfl, hfits, hsame, .cons hfits hrest⟩

/-- The row that is shown of a post stays until a request changes the post. -/
theorem currentPost? (h : Serial sanitizer t done t') (hr : Represents t b) {id : Uuid}
    {row : CurrentPost} (hrow : t.currentPost? id = some row) :
    t'.currentPost? id = some row ∨
    ∃ front d back t₁, done = front ++ d :: back ∧ Serial sanitizer t front t₁ ∧
      t₁.currentPost? id = some row ∧ d.Fits sanitizer t₁ ∧ d.ChangesPost id ∧
      (d.effect sanitizer t₁).tables.currentPost? id ≠ t₁.currentPost? id ∧
      Serial sanitizer t₁ (d :: back) t' := by
  have hkept : ∀ (d : Answered) t, (∃ b, Represents t b) → d.Fits sanitizer t →
      (d.effect sanitizer t).tables.currentPost? id = t.currentPost? id →
      ∃ b, Represents (d.effect sanitizer t).tables b := by
    rintro d t ⟨b, hr⟩ hfits -
    obtain ⟨_, b', -, -, hr'⟩ := hfits.stepped hr
    exact ⟨b', hr'⟩
  rcases h.altered (·.currentPost? id) (fun t => ∃ b, Represents t b) ⟨b, hr⟩ hkept with
    hsame | ⟨front, d, back, t₁, hdone, hfront, ⟨b₁, hr₁⟩, hsame, hfits, halters, hback⟩
  · exact .inl (hsame.trans hrow)
  · have hrow₁ := hsame.trans hrow
    have hchanges := (hfits.currentPost? hr₁ hrow₁).resolve_left (hrow₁ ▸ halters)
    exact .inr ⟨front, d, back, t₁, hdone, hfront, hrow₁, hfits, hchanges, halters, hback⟩

/-- The categories of a version stay until a request changes them. -/
theorem categoriesOf (h : Serial sanitizer t done t') (hwf : t.WellFormed) {post version : Uuid}
    (hplaced : t.Places version post) :
    t'.categoriesOf version = t.categoriesOf version ∨
    ∃ front d back t₁, done = front ++ d :: back ∧ Serial sanitizer t front t₁ ∧
      d.Fits sanitizer t₁ ∧
      d.Recategorizes post version ((t₁.categoriesOf version).map (·.id)) ∧
      (d.effect sanitizer t₁).tables.categoriesOf version ≠ t₁.categoriesOf version := by
  have hkept : ∀ (d : Answered) t, t.WellFormed ∧ t.Places version post → d.Fits sanitizer t →
      (d.effect sanitizer t).tables.categoriesOf version = t.categoriesOf version →
      (d.effect sanitizer t).tables.WellFormed ∧
        (d.effect sanitizer t).tables.Places version post := by
    rintro d t ⟨hwf, hplaced⟩ hfits hsame
    exact ⟨d.wellFormed_effect sanitizer hwf, hfits.places hwf hplaced hsame⟩
  rcases h.altered (·.categoriesOf version) (fun t => t.WellFormed ∧ t.Places version post)
      ⟨hwf, hplaced⟩ hkept with
    hsame | ⟨front, d, back, t₁, hdone, hfront, ⟨hwf₁, hplaced₁⟩, -, hfits, halters, -⟩
  · exact .inl hsame
  · exact .inr ⟨front, d, back, t₁, hdone, hfront, hfits,
      hfits.recategorizes hwf₁ hplaced₁ halters, halters⟩

end Serial

/-! ## Looking while others write -/

namespace Traffic

variable {clock : Nat → Instant} {source : Nat → Uuid} {σ : Traffic} {i : Nat} {r : Request}

/-- The step of a request leaves the others as they are. -/
theorem step_requests_of_ne {j : Nat} (hne : j ≠ i) (r : Request)
    (x : Script (Except Error Reply)) :
    (σ.step clock source j r x).requests[i]? = σ.requests[i]? := by
  cases x with
  | done answer => rfl
  | readClock next => exact List.getElem?_set_ne hne
  | takeId next => exact List.getElem?_set_ne hne
  | report e rest => exact List.getElem?_set_ne hne
  | ask a next =>
    simp only [step]
    split
    · rfl
    · exact List.getElem?_set_ne hne

/-- A request with nothing left to do stays so. -/
theorem move_of_isOver (hr : σ.requests[i]? = some r) (hover : r.isOver = true) (m : Move) :
    (σ.move clock source m).requests[i]? = some r := by
  obtain hmove | ⟨j, r', x, hr', hrest, hmove⟩ | ⟨j, r', hr', hbusy, hmove⟩ :=
    move_cases clock source σ m
  · rw [hmove, hr]
  · rw [hmove]
    by_cases hij : j = i
    · cases (hij ▸ hr').symm.trans hr
      rw [Request.isOver, hrest] at hover
      cases x with
      | done answer => exact hr
      | readClock next | takeId next | report e rest | ask a next => cases hover
    · rw [step_requests_of_ne hij, hr]
  · rw [hmove]
    have hij : j ≠ i := by
      rintro rfl
      cases hr'.symm.trans hr
      cases hbusy.symm.trans hover
    exact (List.getElem?_set_ne hij).trans hr

theorem follow_of_isOver (hr : σ.requests[i]? = some r) (hover : r.isOver = true)
    (moves : List Move) : (σ.follow clock source moves).requests[i]? = some r := by
  induction moves generalizing σ with
  | nil => exact hr
  | cons m rest ih => exact ih (move_of_isOver hr hover m)

theorem perform_query (store : Store) (q : Query) :
    (∃ refusal, store.perform (.query q) = .error refusal) ∨
      store.perform (.query q) = .ok (.ok (store.committed.answer q), store) := by
  obtain ⟨t, _ | record⟩ := store
  · exact .inr rfl
  · exact .inl ⟨_, rfl⟩

/-- A request that is about to look stands there until it is given up or is told what is
committed. -/
theorem move_of_query (clock : Nat → Instant) (source : Nat → Uuid) {q : Query}
    {next : Except Error q.Answer → Script (Except Error Reply)}
    (hr : σ.requests[i]? = some r) (hrest : r.rest = some (.ask (.query q) next)) (m : Move) :
    (σ.move clock source m).requests[i]? = some r ∨
    ∃ r', (σ.move clock source m).requests[i]? = some r' ∧
      (r'.rest = none ∨
        r'.rest = some (next (.ok (σ.store.committed.answer q))).reported) := by
  have hi := (List.getElem?_eq_some_iff.mp hr).1
  obtain hmove | ⟨j, r', x, hr', hrest', hmove⟩ | ⟨j, r', hr', -, hmove⟩ :=
    move_cases clock source σ m
  · rw [hmove]
    exact .inl hr
  · rw [hmove]
    by_cases hij : j = i
    · subst hij
      cases hr.symm.trans hr'
      cases hrest.symm.trans hrest'
      rcases perform_query σ.store q with ⟨refusal, hperform⟩ | hperform
      · simp only [step, hperform]
        exact .inl hr
      · simp only [step, hperform]
        exact .inr ⟨_, List.getElem?_set_self hi, .inr rfl⟩
    · exact .inl ((step_requests_of_ne hij _ _).trans hr)
  · rw [hmove]
    by_cases hij : j = i
    · subst hij
      exact .inr ⟨_, List.getElem?_set_self hi, .inl rfl⟩
    · exact .inl ((List.getElem?_set_ne hij).trans hr)

/-- The reply that a request was given, if it succeeded. -/
def reply? (σ : Traffic) (i : Nat) : Option Reply :=
  match σ.requests[i]?.bind Request.answered? with
  | some ⟨_, .ok reply, _, _⟩ => some reply
  | _ => none

theorem reply?_eq_some_iff (hr : σ.requests[i]? = some r) {reply : Reply} :
    σ.reply? i = some reply ↔ r.rest = some (.done (.ok reply)) := by
  unfold reply?
  rw [hr, Option.bind_some, Request.answered?]
  cases r.rest with
  | none => simp
  | some x =>
    cases x with
    | done answer => cases answer <;> simp
    | readClock next | takeId next | report e rest | ask a next => simp

theorem reply?_follow (hr : σ.requests[i]? = some r) (hover : r.isOver = true)
    (moves : List Move) : (σ.follow clock source moves).reply? i = σ.reply? i := by
  unfold reply?
  rw [follow_of_isOver hr hover moves, hr]

/-- A request that was about to look and was given a reply since has looked at what was committed at
some moment in between. -/
theorem looked_of_reply {q : Query} {next : Except Error q.Answer → Script (Except Error Reply)}
    (hr : σ.requests[i]? = some r) (hrest : r.rest = some (.ask (.query q) next))
    {moves : List Move} {reply : Reply}
    (hreply : (σ.follow clock source moves).reply? i = some reply) :
    ∃ first m later r', moves = first ++ [m] ++ later ∧
      (σ.follow clock source (first ++ [m])).requests[i]? = some r' ∧
      r'.rest =
        some (next (.ok ((σ.follow clock source first).store.committed.answer q))).reported ∧
      ((σ.follow clock source (first ++ [m])).follow clock source later).reply? i = some reply := by
  induction moves generalizing σ with
  | nil => cases hrest.symm.trans ((reply?_eq_some_iff hr).mp hreply)
  | cons m rest ih =>
    obtain hr' | ⟨r', hr', hgone | hlooked⟩ := move_of_query clock source hr hrest m
    · obtain ⟨first, m', later, r', rfl, hr', hlooked, hlater⟩ := ih hr' hreply
      exact ⟨m :: first, m', later, r', rfl, hr', hlooked, hlater⟩
    · -- it was given up, so it was given no reply
      have hover : r'.isOver = true := by rw [Request.isOver, hgone]
      have hend : (σ.move clock source m).reply? i = some reply :=
        (reply?_follow hr' hover rest).symm.trans hreply
      cases hgone.symm.trans ((reply?_eq_some_iff hr').mp hend)
    · exact ⟨[], m, rest, r', rfl, hr', hlooked, hreply⟩

end Traffic

/-! ## Posts that are shown -/

/-- A request for a post looks for its row, and then for the categories of the version in the
row. -/
theorem Operation.run_getPost (sanitizer : Sanitizer) (id : Uuid) :
    ∃ next, ((Operation.getPost id).task sanitizer).run = .ask (.query (.currentPost id)) next ∧
      next (.ok none) = .done (.error (.postNotFound id)) ∧
      ∀ row, ∃ next', next (.ok (some row)) = .ask (.query (.categoriesOf row.version)) next' ∧
        ∀ categories, next' (.ok categories) = .done (.ok (.detail (.of row categories))) :=
  ⟨_, rfl, rfl, fun _ => ⟨_, rfl, fun _ => rfl⟩⟩

/-- The row that is shown of a post is that of a version of it. -/
theorem Tables.WellFormed.version_of_currentPost? {t : Tables} (hwf : t.WellFormed) {id : Uuid}
    {row : CurrentPost} (h : t.currentPost? id = some row) :
    ∃ v, t.versions.get? row.version = some v ∧ v.post = id := by
  unfold Tables.currentPost? at h
  obtain ⟨post, hpost, h⟩ := Option.bind_eq_some_iff.mp h
  obtain ⟨current, hcurrent, h⟩ := Option.bind_eq_some_iff.mp h
  obtain ⟨v, hv, h⟩ := Option.bind_eq_some_iff.mp h
  split at h
  · rename_i howner
    cases h
    have hid : v.id = current := hwf.versions current v hv
    exact ⟨v, (congrArg t.versions.get? hid).trans hv, howner.trans (hwf.posts id post hpost)⟩
  · cases h

/-- The reply to an operation that is served alone when some tables are committed, if it
succeeds. -/
def Tables.reply? (t : Tables) (sanitizer : Sanitizer) (op : Operation) : Option Reply :=
  (op.perform (.serving [] []) sanitizer { World.initial with store := ⟨t, none⟩ }).1.reply?

theorem Tables.reply?_getPost {t : Tables} {id : Uuid} {row : CurrentPost}
    (hrow : t.currentPost? id = some row) (sanitizer : Sanitizer) :
    t.reply? sanitizer (.getPost id) =
      some (.detail (.of row (t.categoriesOf row.version))) := by
  obtain ⟨next, htask, -, hfound⟩ := Operation.run_getPost sanitizer id
  obtain ⟨next', hnext, hdone⟩ := hfound row
  have hfirst : Store.perform ⟨t, none⟩ (.query (.currentPost id)) =
      .ok (.ok (some row), ⟨t, none⟩) := by
    rw [← hrow]
    rfl
  have hsecond : Store.perform ⟨t, none⟩ (.query (.categoriesOf row.version)) =
      .ok (.ok (t.categoriesOf row.version), ⟨t, none⟩) := rfl
  unfold reply? Operation.perform Script.perform
  rw [htask, Script.run_ask_of_none rfl hfirst, hnext, Script.run_ask_of_none rfl hsecond, hdone]
  rfl

namespace Traffic

variable {clock : Nat → Instant} {source : Nat → Uuid} {σ : Traffic}

/-- What is shown of a post is a row of one moment and categories of the same moment or a later
one. -/
theorem shown_of_reply {sanitizer : Sanitizer} {i : Nat} {id : Uuid} {d : PostDetail}
    {moves : List Move} (hnew : σ.requests[i]? = some (.new sanitizer (.getPost id)))
    (hreply : (σ.follow clock source moves).reply? i = some (.detail d)) :
    ∃ first middle last row, moves = first ++ middle ++ last ∧
      (σ.follow clock source first).store.committed.currentPost? id = some row ∧
      d = .of row ((σ.follow clock source (first ++ middle)).store.committed.categoriesOf
        row.version) := by
  obtain ⟨next, htask, hmissing, hfound⟩ := Operation.run_getPost sanitizer id
  have hrest : (Request.new sanitizer (.getPost id)).rest =
      some (.ask (.query (.currentPost id)) next) := by
    simp only [Request.new, htask, Script.reported]
  obtain ⟨first, m, later, r, rfl, hr, hlooked, hlater⟩ := looked_of_reply hnew hrest hreply
  change r.rest = some (next (.ok
    ((σ.follow clock source first).store.committed.currentPost? id))).reported at hlooked
  cases hrow : (σ.follow clock source first).store.committed.currentPost? id with
  | none =>
    -- it was answered that there is no such post
    rw [hrow, hmissing] at hlooked
    have hover : r.isOver = true := by rw [Request.isOver, hlooked]; rfl
    rw [reply?_follow hr hover] at hlater
    cases hlooked.symm.trans ((reply?_eq_some_iff hr).mp hlater)
  | some row =>
    obtain ⟨next', hnext, hdone⟩ := hfound row
    rw [hrow, hnext] at hlooked
    obtain ⟨second, m', last, r', rfl, hr', hlooked', hlast⟩ := looked_of_reply hr hlooked hlater
    rw [hdone, ← follow_append] at hlooked'
    have hover : r'.isOver = true := by rw [Request.isOver, hlooked']; rfl
    rw [reply?_follow hr' hover] at hlast
    refine ⟨first, m :: second, m' :: last, row, by simp, hrow, ?_⟩
    rw [List.append_cons]
    cases hlooked'.symm.trans ((reply?_eq_some_iff hr').mp hlast)
    rfl

/-- Categories that are looked for later than the row they are shown with are what one moment in
between would have shown with it, unless the row and then the categories were changed. -/
theorem Inv.shown_at_once (clock : Nat → Instant) (source : Nat → Uuid) {sanitizer : Sanitizer}
    {t : Tables} {id : Uuid} {row : CurrentPost} {d : PostDetail} {moves : List Move}
    (h : σ.Inv sanitizer t) (hrow : t.currentPost? id = some row)
    (hd : d = .of row
      ((σ.follow clock source moves).store.committed.categoriesOf row.version)) :
    (∃ part, part <+: moves ∧
      (σ.follow clock source part).store.committed.reply? sanitizer (.getPost id) =
        some (.detail d)) ∨
    ∃ done, (σ.follow clock source moves).completed = σ.completed ++ done ∧
      Answered.Torn sanitizer σ.completed done id d.version := by
  obtain ⟨b, hr⟩ := h.serial.represents represents_empty
  obtain ⟨t', h'⟩ := h.follow clock source moves
  obtain ⟨done, hdone⟩ := h.completed_follow clock source moves
  rw [h'.committed] at hd
  subst hd
  rcases (h.serial_follow h' hdone.symm).currentPost? hr hrow with
    hrow' | ⟨front, e, rest, t₁, rfl, hfront, hrow₁, hfits, hchanges, halters, hrest⟩
  · -- the row is the same when the categories are looked for
    refine .inl ⟨moves, List.prefix_rfl, ?_⟩
    rw [h'.committed]
    exact Tables.reply?_getPost hrow' sanitizer
  · have hbefore := h.serial.append hfront
    have hwf₁ := hbefore.wellFormed .empty
    have hplaced : t₁.Places row.version id := .inl (hwf₁.version_of_currentPost? hrow₁)
    rcases hrest.categoriesOf hwf₁ hplaced with
      hsame | ⟨middle, e', back, t₂, hsplit, hmiddle, hfits', hchanges', halters'⟩
    · -- the categories are still those of the last moment before the row was changed
      have hends : σ.completed ++ front <+: (σ.follow clock source moves).completed := by
        rw [← hdone, ← List.append_assoc]
        exact List.prefix_append _ _
      obtain ⟨part, hpart, hreached⟩ :=
        h.reached clock source moves (List.prefix_append _ _) hends
      obtain ⟨t₂, h₂⟩ := h.follow clock source part
      obtain rfl : t₂ = t₁ := (h.serial_follow h₂ hreached).unique hfront
      refine .inl ⟨part, hpart, ?_⟩
      rw [h₂.committed, hsame]
      exact Tables.reply?_getPost hrow₁ sanitizer
    · have hbefore' := hbefore.append hmiddle
      refine .inr ⟨_, hdone.symm, front, e, rest, middle, e', back, rfl, hsplit, hchanges,
        hbefore.alters hfits halters, ?_, hbefore'.alters hfits' halters'⟩
      rw [hbefore'.again_eq.2]
      exact hchanges'

end Traffic

/-- **A post is shown between two moments.** However requests interleave with one for a post: if it
is answered with the post, it shows the row of the post that was committed at some moment while it
was served, with the categories that the version in the row had then or at a later moment while it
was served. The same is answered to the request alone at one of the moments from the first to the
second, unless one of the requests answered in between changed the row and the same one or a later
one changed the categories of the version. -/
theorem post_shown_between (clock : Nat → Instant) (source : Nat → Uuid) (sanitizer : Sanitizer)
    (ops : List Operation) (moves during : List Move) (i : Nat) (id : Uuid) (d : PostDetail) :
    let σ := (Traffic.start sanitizer ops).follow clock source moves
    let after := σ.follow clock source
    σ.requests[i]? = some (.new sanitizer (.getPost id)) →
    (after during).reply? i = some (.detail d) →
    ∃ first middle last, during = first ++ middle ++ last ∧
      (∃ row, (after first).store.committed.currentPost? id = some row ∧
        d = .of row ((after (first ++ middle)).store.committed.categoriesOf row.version)) ∧
      ((∃ part, part <+: middle ∧
        (after (first ++ part)).store.committed.reply? sanitizer (.getPost id) =
          some (.detail d)) ∨
      ∃ done, (after (first ++ middle)).completed = (after first).completed ++ done ∧
        Answered.Torn sanitizer (after first).completed done id d.version) := by
  intro σ after hnew hreply
  obtain ⟨first, middle, last, row, rfl, hrow, hd⟩ := Traffic.shown_of_reply hnew hreply
  obtain ⟨t, hinv⟩ := (Traffic.inv_start sanitizer ops).follow clock source moves
  obtain ⟨t₁, hinv₁⟩ : ∃ t₁, (after first).Inv sanitizer t₁ := hinv.follow clock source first
  have hfollow (part : List Move) :
      after (first ++ part) = (after first).follow clock source part :=
    Traffic.follow_append clock source σ first part
  refine ⟨first, middle, last, rfl, ⟨row, hrow, hd⟩, ?_⟩
  rw [hinv₁.committed] at hrow
  rw [Traffic.follow_append] at hd
  simp only [hfollow]
  exact hinv₁.shown_at_once clock source hrow hd

/-- A post is made and put into a category, then it is looked for while it is edited or its draft is
deleted. -/
def readers : List Operation :=
  [.createPost ⟨"title", "text"⟩, .createCategory ⟨"news"⟩, .attach ⟨.ofNat 1, [.ofNat 2]⟩,
    .getPost (.ofNat 0), .updatePost (.ofNat 0) ⟨none, some "more"⟩, .deleteDraft (.ofNat 0)]

/-- The draft of the post as it is shown in some categories. -/
def draftDetail (categories : List Category) : PostDetail :=
  { post := .ofNat 0, version := .ofNat 1, title := "title", content := "text", number := 1
    status := .draft, published := none, categories, created := ticks 0, updated := ticks 0 }

/-- The post is edited between the two looks. It is shown as it was before. -/
theorem post_shown_between_edit :
    let σ := (Traffic.start .identity readers).follow ticks .ofNat (turns [0, 1, 2])
    let during := .advance 3 :: turns [4, 3]
    let news : Category := .new (.ofNat 2) "news" (ticks 1)
    (σ.requests[3]? = some (.new .identity (.getPost (.ofNat 0))) ∧
      (σ.follow ticks .ofNat during).reply? 3 = some (.detail (draftDetail [news]))) ∧
    ∃ first middle last row, during = first ++ middle ++ last ∧
      (σ.follow ticks .ofNat first).store.committed.currentPost? (.ofNat 0) = some row ∧
      draftDetail [news] = .of row
        ((σ.follow ticks .ofNat (first ++ middle)).store.committed.categoriesOf row.version) := by
  intro σ during news
  have hnew : σ.requests[3]? = some (.new .identity (.getPost (.ofNat 0))) := rfl
  have hreply : (σ.follow ticks .ofNat during).reply? 3 = some (.detail (draftDetail [news])) := by
    decide +kernel
  obtain ⟨first, middle, last, hduring, ⟨row, hrow, hshown⟩, -⟩ :=
    post_shown_between ticks .ofNat .identity readers (turns [0, 1, 2]) during 3 (.ofNat 0)
      (draftDetail [news]) hnew hreply
  exact ⟨⟨hnew, hreply⟩, first, middle, last, row, hduring, hrow, hshown⟩

/-- The draft is deleted between the two looks, and its links with it. It is shown without its
category, as it never was. -/
theorem post_torn :
    let σ := (Traffic.start .identity readers).follow ticks .ofNat (turns [0, 1, 2])
    let during := .advance 3 :: turns [5, 3]
    σ.requests[3]? = some (.new .identity (.getPost (.ofNat 0))) ∧
    (σ.follow ticks .ofNat during).reply? 3 = some (.detail (draftDetail [])) ∧
    ∀ part, part <+: during →
      (σ.follow ticks .ofNat part).store.committed.reply? .identity (.getPost (.ofNat 0)) ≠
        some (.detail (draftDetail [])) := by
  intro σ during
  have hnew : σ.requests[3]? = some (.new .identity (.getPost (.ofNat 0))) := rfl
  have hreply : (σ.follow ticks .ofNat during).reply? 3 = some (.detail (draftDetail [])) := by
    decide +kernel
  have hnever : ∀ n < during.length + 1,
      (σ.follow ticks .ofNat (during.take n)).store.committed.reply? .identity
        (.getPost (.ofNat 0)) ≠ some (.detail (draftDetail [])) := by
    decide +kernel
  refine ⟨hnew, hreply, fun part hpart => ?_⟩
  rw [List.prefix_iff_eq_take.mp hpart]
  exact hnever part.length (Nat.lt_succ_of_le hpart.length_le)

end Weblog

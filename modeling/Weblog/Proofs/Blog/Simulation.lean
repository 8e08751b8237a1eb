import Weblog.Proofs.Blog.Represents
import Weblog.Proofs.Effect

/-!
# The service follows the machine

What the machine does in one step the service does with rows, whichever of its answers it gives
(`plan_follows`). Each change is evaluated on tables that stand for a blog, call by call; the
version that a lock answers is the one that the machine shows.
-/

namespace Weblog

namespace History

variable {h : History} {id : Uuid}

theorem shown?_of_draft {d : Draft} (hdraft : h.draft = some d) :
    h.shown? id = some (d.toVersion id (h.last + 1)) := by
  simp [shown?, draftVersion?, hdraft]

theorem shown?_of_last {p : Publication} (hdraft : h.draft = none)
    (hlast : h.publications.getLast? = some p) : h.shown? id = some (p.toVersion id h.last) := by
  simp [shown?, draftVersion?, lastPublished?, hdraft, hlast]

theorem shown?_of_nothing (hdraft : h.draft = none) (hlast : h.publications.getLast? = none) :
    h.shown? id = none := by
  simp [shown?, draftVersion?, lastPublished?, hdraft, hlast]

end History

/-! ## Locks -/

section

variable (now : Instant) (fresh : Nat → Uuid) (ws : Workspace) {α : Type}

theorem Posts.eval_lockPost (id : Uuid) :
    (lockPost id).eval now fresh ws = match ws.tables.posts.get? id with
      | some post => (.ok post, ws)
      | none => (.error (.postNotFound id), ws) := by
  refine (Task.eval_bind_ok (Task.eval_call_of rfl)).trans ?_
  cases ws.tables.posts.get? id <;> rfl

theorem Posts.eval_lockLatest (id : Uuid) :
    (lockLatest id).eval now fresh ws = match latestVersion? ws.tables.versions.rows id with
      | some v => (.ok v, ws)
      | none => (.error (.noVersions id), ws) := by
  refine (Task.eval_bind_ok (Task.eval_call_of rfl)).trans ?_
  cases latestVersion? ws.tables.versions.rows id <;> rfl

end

namespace Represents

variable {now : Instant} {fresh : Nat → Uuid} {ws : Workspace} {α : Type} {b : Blog} {id : Uuid}
  {h : History} {f : Post → Version → Task α} (hr : Represents ws.tables b)

include hr

theorem eval_lockPost (hget : b.get? id = some h) :
    (Posts.lockPost id).eval now fresh ws = (.ok (h.post id), ws) := by
  rw [Posts.eval_lockPost, hr.posts, hget]
  rfl

/-- What needs a post and its latest version fails without a post. -/
theorem eval_locks_of_none (hget : b.get? id = none) :
    (do let post ← Posts.lockPost id
        let latest ← Posts.lockLatest id
        f post latest : Task α).eval now fresh ws = (.error (.postNotFound id), ws) := by
  refine Task.eval_bind_error ?_
  rw [Posts.eval_lockPost, hr.posts, hget]
  rfl

/-- What needs a post and its latest version fails without a version. -/
theorem eval_locks_of_nothing (hget : b.get? id = some h) (hshown : h.shown? id = none) :
    (do let post ← Posts.lockPost id
        let latest ← Posts.lockLatest id
        f post latest : Task α).eval now fresh ws = (.error (.noVersions id), ws) := by
  refine (Task.eval_bind_ok (hr.eval_lockPost hget)).trans (Task.eval_bind_error ?_)
  rw [Posts.eval_lockLatest, hr.latest_of_get? hget, hshown]

/-- What needs a post and its latest version is done with the version that is shown. -/
theorem eval_locks {v : Version} (hget : b.get? id = some h) (hshown : h.shown? id = some v) :
    (do let post ← Posts.lockPost id
        let latest ← Posts.lockLatest id
        f post latest : Task α).eval now fresh ws = (f (h.post id) v).eval now fresh ws := by
  refine (Task.eval_bind_ok (hr.eval_lockPost hget)).trans (Task.eval_bind_ok ?_)
  rw [Posts.eval_lockLatest, hr.latest_of_get? hget, hshown]

end Represents

/-! ## Writing calls -/

/-- The text of a stored version and the time of its publication are written. -/
theorem Tables.call_updateVersion {t : Tables} {stored v : Version}
    (hstored : t.versions.get? v.id = some stored)
    (hv : v = { stored with title := v.title, content := v.content, published := v.published }) :
    t.call (.updateVersion v) = (.ok (), t.withVersion v) := by
  simp only [call, hstored]
  rw [← hv]

namespace Represents

variable {t : Tables} {b : Blog} (hr : Represents t b) {id : Uuid} {h : History}

include hr

/-- A post is written with the version that it points to from now on. -/
theorem call_updatePost (t' : Tables) (hposts : t'.posts = t.posts) (hget : b.get? id = some h)
    {h' : History} {vs : List Version} {now : Instant} (hnew : h'.versions id = vs)
    (hcreated : h'.created = h.created) (hupdated : h'.updated = now) :
    t'.call (.updatePost ((h.post id).pointTo (vs.getLast?.map (·.id)) now)) =
      (.ok (), t'.withPost (h'.post id)) := by
  have hstored : t'.posts.get? id = some (h.post id) := by rw [hposts, hr.posts, hget]; rfl
  have hrow : h'.post id = (h.post id).pointTo (vs.getLast?.map (·.id)) now := by
    rw [History.post_of_versions hnew, hcreated, hupdated]
    rfl
  rw [hrow]
  simp only [Tables.call, Post.pointTo, History.post] at hstored ⊢
  rw [hstored]

theorem call_createVersion (t' : Tables) (hversions : t'.versions = t.versions) (v : Version)
    (hpost : t'.posts.contains v.post = true)
    (hnumber : ∀ w ∈ b.versionsOf v.post, w.number < v.number) :
    t'.call (.createVersion v) =
      if (b.version? v.id).isSome then (.error (Blog.duplicateVersion v.post v.number), t')
      else (.ok (), t'.withVersion v) := by
  have hany : (t'.versions.rows.any fun w => w.post = v.post ∧ w.number = v.number) = false := by
    rw [hversions, List.any_eq_false]
    intro w hw hsame
    obtain ⟨hwpost, hwnumber⟩ := of_decide_eq_true hsame
    have hlt := hnumber w (hwpost ▸ hr.mem_rows.mp hw)
    omega
  have hcontains : t'.versions.contains v.id = (b.version? v.id).isSome := by
    rw [hr.version?_eq, hversions]
    rfl
  simp only [Tables.call, hpost, hany, hcontains, Bool.not_true, Bool.false_eq_true, false_or,
    if_false]
  rfl

end Represents

/-! ## Changes -/

/-- The service did what the machine did: the reply is the same and the tables stand for the machine
afterwards, or the error is the same and the machine is as it was. -/
inductive Simulated (b : Blog) : Except Error Reply × Blog → Except Error Settled × Workspace → Prop
  | ok {settled : Settled} {ws : Workspace} {b' : Blog} (h : Represents ws.tables b') :
    Simulated b (.ok settled.reply, b') (.ok settled, ws)
  | error {e : Error} {ws : Workspace} : Simulated b (.error e, b) (.error e, ws)

section

variable {sanitizer : Sanitizer} {now : Instant} {fresh : Nat → Uuid} {t : Tables} {b b' : Blog}

theorem Simulated.of_ok {α : Type} {x : Task α} {f : α → Settled} {a : α} {start ws : Workspace}
    {reply : Reply} (heval : x.eval now fresh start = (.ok a, ws)) (hreply : (f a).reply = reply)
    (h : Represents ws.tables b') :
    Simulated b (.ok reply, b') ((f <$> x).eval now fresh start) := by
  rw [Task.eval_map, heval, ← hreply]
  exact .ok h

theorem Simulated.of_error {α : Type} {x : Task α} {f : α → Settled} {e : Error}
    {start ws : Workspace} (heval : x.eval now fresh start = (.error e, ws)) :
    Simulated b (.error e, b) ((f <$> x).eval now fresh start) := by
  rw [Task.eval_map, heval]
  exact .error

variable (hr : Represents t b) (id : Uuid)

include hr

/-- The publication of a draft writes its version and its post. -/
theorem eval_publishIn_of_draft {h : History} {d : Draft} (hget : b.get? id = some h)
    (hdraft : h.draft = some d) :
    let v := (d.publish now).toVersion id (h.last + 1)
    let h' : History :=
      { h with updated := now, publications := h.publications ++ [d.publish now], draft := none }
    (Posts.publishIn id now).eval now fresh ⟨t, 0, []⟩ = (.ok v,
      ⟨(t.withVersion v).withPost (h'.post id), 0, [.versionPublished id v.id v.number]⟩) := by
  intro v h'
  have hnew : h'.versions id = h.published id ++ [v] :=
    (History.versions_of_no_draft rfl).trans (h.published_append (d.publish now) id)
  have hwrite : t.call (.updateVersion v) = (.ok (), t.withVersion v) :=
    Tables.call_updateVersion (hr.get?_draft hget hdraft) rfl
  have hpoint := hr.call_updatePost (t.withVersion v) rfl hget hnew rfl rfl
  rw [List.getLast?_concat] at hpoint
  refine (hr.eval_locks hget (History.shown?_of_draft hdraft)).trans ?_
  refine (Task.eval_bind_ok rfl).trans ?_
  refine (Task.eval_bind_ok (Task.eval_call_of hwrite)).trans ?_
  exact Task.eval_bind_ok (Task.eval_call_of hpoint)

theorem simulated_publish :
    Simulated b (b.publish now id)
      (((fun v => ⟨.published (.of v now), none⟩) <$> Posts.publishIn id now).eval now fresh
        ⟨t, 0, []⟩) := by
  unfold Blog.publish
  cases hget : b.get? id with
  | none => exact .of_error (hr.eval_locks_of_none hget)
  | some h =>
    dsimp only
    cases hdraft : h.draft with
    | none =>
      cases hlast : h.publications.getLast? with
      | none =>
        exact .of_error (hr.eval_locks_of_nothing hget (History.shown?_of_nothing hdraft hlast))
      | some p => exact .of_error (hr.eval_locks hget (History.shown?_of_last hdraft hlast))
    | some d =>
      have hold := Blog.versionsOf_of_draft hget hdraft
      let h' : History :=
        { h with updated := now, publications := h.publications ++ [d.publish now], draft := none }
      have hnew : h'.versions id = h.published id ++ [(d.publish now).toVersion id (h.last + 1)] :=
        (History.versions_of_no_draft rfl).trans (h.published_append (d.publish now) id)
      exact .of_ok (eval_publishIn_of_draft hr id hget hdraft) rfl
        (hr.write hold (hr.get?_draft hget hdraft) hnew)

/-- The deletion of a draft removes the version of the draft and writes its post. -/
theorem eval_deleteDraftIn {h : History} {d : Draft} (hget : b.get? id = some h)
    (hdraft : h.draft = some d) :
    let h' : History := { h with updated := now, draft := none }
    (Posts.deleteDraftIn id now).eval now fresh ⟨t, 0, []⟩ = (.ok (),
      ⟨(t.withoutVersion d.version).withPost (h'.post id), 0,
        [.draftDeleted id d.version (h.last + 1) ((h.published id).getLast?.map (·.id))]⟩) := by
  intro h'
  have hold := Blog.versionsOf_of_draft hget hdraft
  have hnew : h'.versions id = h.published id := History.versions_of_no_draft rfl
  have hslot := hr.get?_draft hget hdraft
  have hrep := hr.remove hold hnew
  have hdelete : t.call (.deleteVersion d.version) = (.ok (), t.withoutVersion d.version) := by
    simp only [Tables.call, Table.contains, hslot, Option.isSome_some, if_true]
  -- the versions that are left are those of the tables at the end
  have hprevious : (t.withoutVersion d.version).call (.lockLatestVersion id) =
      (.ok (h.published id).getLast?, t.withoutVersion d.version) := by
    have hleft := hrep.latest id
    rw [Blog.versionsOf_put_self, hnew] at hleft
    exact congrArg (fun latest => (Except.ok latest, t.withoutVersion d.version)) hleft
  have hpoint := hr.call_updatePost (t.withoutVersion d.version) rfl hget hnew rfl rfl
  refine (hr.eval_locks hget (History.shown?_of_draft hdraft)).trans ?_
  refine (Task.eval_bind_ok rfl).trans ?_
  refine (Task.eval_bind_ok (Task.eval_call_of hdelete)).trans ?_
  refine (Task.eval_bind_ok (Task.eval_call_of hprevious)).trans ?_
  exact Task.eval_bind_ok (Task.eval_call_of hpoint)

theorem simulated_deleteDraft :
    Simulated b (b.deleteDraft now id)
      (((fun () => ⟨.done, none⟩) <$> Posts.deleteDraftIn id now).eval now fresh ⟨t, 0, []⟩) := by
  unfold Blog.deleteDraft
  cases hget : b.get? id with
  | none => exact .of_error (hr.eval_locks_of_none hget)
  | some h =>
    dsimp only
    cases hdraft : h.draft with
    | none =>
      cases hlast : h.publications.getLast? with
      | none =>
        exact .of_error (hr.eval_locks_of_nothing hget (History.shown?_of_nothing hdraft hlast))
      | some p => exact .of_error (hr.eval_locks hget (History.shown?_of_last hdraft hlast))
    | some d =>
      have hold := Blog.versionsOf_of_draft hget hdraft
      exact .of_ok (eval_deleteDraftIn hr id hget hdraft) rfl
        (hr.remove hold (History.versions_of_no_draft rfl))

/-- An edit of a draft changes it in place and takes no identifier. -/
theorem eval_updateIn_of_draft {h : History} {d : Draft} (hget : b.get? id = some h)
    (hdraft : h.draft = some d) (title content : Option String) :
    let d' := { d with title := title.getD d.title, content := content.getD d.content }
    let v := d'.toVersion id (h.last + 1)
    (Posts.updateIn id title content now).eval now fresh ⟨t, 0, []⟩ =
      (.ok v, ⟨t.withVersion v, 0, [.draftAmended id v.id v.number]⟩) := by
  intro d' v
  have hwrite : t.call (.updateVersion v) = (.ok (), t.withVersion v) :=
    Tables.call_updateVersion (hr.get?_draft hget hdraft) rfl
  refine (hr.eval_locks hget (History.shown?_of_draft hdraft)).trans ?_
  exact Task.eval_bind_ok (Task.eval_call_of hwrite)

/-- An edit of a published text takes an identifier. If that is unused, it names the new draft. -/
theorem eval_updateIn_of_last {h : History} {p : Publication} (hget : b.get? id = some h)
    (hdraft : h.draft = none) (hlast : h.publications.getLast? = some p)
    (title content : Option String) :
    let d : Draft :=
      { version := fresh 0, title := title.getD p.title, content := content.getD p.content
        created := now }
    let v := d.toVersion id (h.last + 1)
    let h' : History := { h with updated := now, draft := some d }
    (Posts.updateIn id title content now).eval now fresh ⟨t, 0, []⟩ =
      if (b.version? (fresh 0)).isSome then
        (.error (Blog.duplicateVersion id (h.last + 1)), ⟨t, 1, []⟩)
      else (.ok v, ⟨(t.withVersion v).withPost (h'.post id), 1,
        [.draftStacked id v.id v.number]⟩) := by
  intro d v h'
  have hshown : h.shown? id = some (p.toVersion id h.last) := History.shown?_of_last hdraft hlast
  have hold : b.versionsOf id = h.published id :=
    (Blog.versionsOf_of_get? hget).trans (History.versions_of_no_draft hdraft)
  have hnew : h'.versions id = h.published id ++ [v] := History.versions_of_draft rfl
  have hpost : t.posts.contains id = true :=
    Table.contains_iff.mpr ⟨h.post id, by rw [hr.posts, hget]; rfl⟩
  have hcreate := hr.call_createVersion t rfl v hpost fun w hw =>
    History.number_of_mem_published (hold ▸ hw)
  refine (hr.eval_locks hget hshown).trans ?_
  refine (Task.eval_bind_ok rfl).trans ?_
  split
  · rename_i hused
    exact Task.eval_bind_error (Task.eval_call_of (hcreate.trans (if_pos hused)))
  · rename_i hunused
    have hpoint := hr.call_updatePost (t.withVersion v) rfl hget hnew rfl rfl
    rw [List.getLast?_concat] at hpoint
    refine (Task.eval_bind_ok (Task.eval_call_of (hcreate.trans (if_neg hunused)))).trans ?_
    exact Task.eval_bind_ok (Task.eval_call_of hpoint)

theorem simulated_amend {h : History} {d : Draft} (hget : b.get? id = some h)
    (hdraft : h.draft = some d) (title content : Option String) :
    let d' := { d with title := title.getD d.title, content := content.getD d.content }
    Simulated b
      (.ok (.post (.of (d'.toVersion id (h.last + 1)))), b.put id { h with draft := some d' })
      (((fun v => ⟨.post (.of v), none⟩) <$> Posts.updateIn id title content now).eval now fresh
        ⟨t, 0, []⟩) := by
  intro d'
  exact .of_ok (eval_updateIn_of_draft hr id hget hdraft title content) rfl
    (hr.amendDraft hget hdraft rfl)

theorem simulated_stack {h : History} {p : Publication} (hget : b.get? id = some h)
    (hdraft : h.draft = none) (hlast : h.publications.getLast? = some p)
    (title content : Option String) :
    let d : Draft :=
      { version := fresh 0, title := title.getD p.title, content := content.getD p.content
        created := now }
    Simulated b
      (if (b.version? (fresh 0)).isSome then (.error (Blog.duplicateVersion id (h.last + 1)), b)
        else (.ok (.post (.of (d.toVersion id (h.last + 1)))),
          b.put id { h with updated := now, draft := some d }))
      (((fun v => ⟨.post (.of v), none⟩) <$> Posts.updateIn id title content now).eval now fresh
        ⟨t, 0, []⟩) := by
  intro d
  have hrun : (Posts.updateIn id title content now).eval now fresh ⟨t, 0, []⟩ = _ :=
    eval_updateIn_of_last hr id hget hdraft hlast title content
  split
  · rename_i hused
    exact .of_error (hrun.trans (if_pos hused))
  · rename_i hunused
    exact .of_ok (hrun.trans (if_neg hunused)) rfl
      (hr.startDraft now hget hdraft (Option.not_isSome_iff_eq_none.mp hunused))

theorem simulated_update (r : UpdatePost)
    (hgiven : ¬ ((cleanOption sanitizer r.title).isNone ∧
      (cleanOption sanitizer r.content).isNone)) :
    Simulated b (b.update sanitizer now fresh id r)
      (((fun v => ⟨.post (.of v), none⟩) <$> Posts.updateIn id (cleanOption sanitizer r.title)
        (cleanOption sanitizer r.content) now).eval now fresh ⟨t, 0, []⟩) := by
  simp only [Option.isNone_iff_eq_none] at hgiven
  simp only [Blog.update, if_neg hgiven]
  cases hget : b.get? id with
  | none => exact .of_error (hr.eval_locks_of_none hget)
  | some h =>
    dsimp only
    cases hdraft : h.draft with
    | some d => exact simulated_amend hr id hget hdraft _ _
    | none =>
      cases hlast : h.publications.getLast? with
      | none =>
        exact .of_error (hr.eval_locks_of_nothing hget (History.shown?_of_nothing hdraft hlast))
      | some p => exact simulated_stack hr id hget hdraft hlast _ _

/-- A post under an identifier that is new is written with its first draft, unless the identifier
for that is in use. -/
theorem eval_createIn_of_new (hget : b.get? (fresh 0) = none) (title content : String) :
    let v := Version.firstDraft (fresh 1) (fresh 0) title content now
    let p := Post.new (fresh 0) now
    (Posts.createIn title content now).eval now fresh ⟨t, 0, []⟩ =
      if (b.version? (fresh 1)).isSome then
        (.error (Blog.duplicateVersion (fresh 0) 1), ⟨t.withPost p, 2, []⟩)
      else (.ok v, ⟨(t.withVersion v).withPost (p.pointTo v.id now), 2, []⟩) := by
  intro v p
  have hrow : t.posts.get? (fresh 0) = none := by rw [hr.posts, hget]; rfl
  have hpost : t.call (.createPost p) = (.ok (), t.withPost p) := by
    have hcontains := Table.contains_eq_false_iff.mpr hrow
    exact if_neg (by simpa [p, Post.new] using hcontains)
  have hstored : (t.withPost p).posts.get? (fresh 0) = some p := Table.get?_insert_self _ _ _
  have hcreate := hr.call_createVersion (t.withPost p) rfl v
    (Table.contains_iff.mpr ⟨p, hstored⟩) fun w hw => by
      cases (Blog.versionsOf_of_none hget ▸ hw : w ∈ ([] : List Version))
  refine (Task.eval_bind_ok rfl).trans ?_
  refine (Task.eval_bind_ok (Task.eval_call_of hpost)).trans ?_
  refine (Task.eval_bind_ok rfl).trans ?_
  split
  · rename_i hused
    exact Task.eval_bind_error (Task.eval_call_of (hcreate.trans (if_pos hused)))
  · rename_i hunused
    have hpoint : ((t.withPost p).withVersion v).call (.updatePost (p.pointTo v.id now)) =
        (.ok (), (t.withVersion v).withPost (p.pointTo v.id now)) := by
      simp only [Tables.call, Post.pointTo, p, Post.new, Tables.withVersion] at hstored ⊢
      rw [hstored]
      simp only [Tables.withPost, Table.insert_insert]
    refine (Task.eval_bind_ok (Task.eval_call_of (hcreate.trans (if_neg hunused)))).trans ?_
    exact Task.eval_bind_ok (Task.eval_call_of hpoint)

/-- A post under an identifier that is new starts with a draft, unless the identifier for that is in
use. -/
theorem simulated_start (hget : b.get? (fresh 0) = none) (title content : String) :
    let d : Draft := { version := fresh 1, title, content, created := now }
    Simulated b
      (if (b.version? (fresh 1)).isSome then (.error (Blog.duplicateVersion (fresh 0) 1), b)
        else (.ok (.post (.of (d.toVersion (fresh 0) 1))),
          b.put (fresh 0) { created := now, updated := now, publications := [], draft := some d }))
      (((fun v => ⟨.post (.of v), none⟩) <$> Posts.createIn title content now).eval now fresh
        ⟨t, 0, []⟩) := by
  intro d
  have hrun : (Posts.createIn title content now).eval now fresh ⟨t, 0, []⟩ = _ :=
    eval_createIn_of_new hr hget title content
  split
  · rename_i hused
    exact .of_error (hrun.trans (if_pos hused))
  · rename_i hunused
    let v := d.toVersion (fresh 0) 1
    let h' : History := { created := now, updated := now, publications := [], draft := some d }
    have hold : b.versionsOf (fresh 0) = [] := Blog.versionsOf_of_none hget
    have hnew : h'.versions (fresh 0) = [] ++ [v] := rfl
    have hslot : t.versions.get? v.id = none :=
      (hr.version?_eq _).symm.trans (Option.not_isSome_iff_eq_none.mp hunused)
    exact .of_ok (hrun.trans (if_neg hunused)) rfl (hr.write (hold.trans rfl) hslot hnew)

theorem simulated_create (r : CreatePost)
    (hgiven : Blog.blankRefusal? (sanitizer r.title) (sanitizer r.content) = none) :
    Simulated b (b.create sanitizer now fresh r)
      (((fun v => ⟨.post (.of v), none⟩) <$> Posts.createIn (sanitizer r.title)
        (sanitizer r.content) now).eval now fresh ⟨t, 0, []⟩) := by
  simp only [Blog.create, hgiven]
  cases htaken : b.contains (fresh 0) with
  | false =>
    simp only [Bool.false_eq_true, if_false]
    exact simulated_start hr (Table.contains_eq_false_iff.mp htaken) _ _
  | true =>
    have hcontains : t.posts.contains (fresh 0) = true := by
      simpa only [Table.contains, hr.posts, Option.isSome_map] using htaken
    have hrefused : t.call (.createPost (Post.new (fresh 0) now)) =
        (.error (.internal ("duplicate post id " ++ (fresh 0).toText)), t) := if_pos hcontains
    have hrun :
        (Posts.createIn (sanitizer r.title) (sanitizer r.content) now).eval now fresh ⟨t, 0, []⟩ =
          (.error (.internal ("duplicate post id " ++ (fresh 0).toText)), ⟨t, 1, []⟩) := by
      refine (Task.eval_bind_ok rfl).trans ?_
      exact Task.eval_bind_error (Task.eval_call_of hrefused)
    exact .of_error hrun

end

/-! ## Operations -/

theorem refuseBlank_eq (title content : String) :
    refuseBlank (blankFields [("title", title), ("content", content)]) =
      match Blog.blankRefusal? title content with
      | some text => .error (.invalidInput text)
      | none => .ok () := by
  have hfields : blankFields [("title", title), ("content", content)] =
      (if title = "" then ["title"] else []) ++ (if content = "" then ["content"] else []) := by
    by_cases htitle : title = "" <;> by_cases hcontent : content = "" <;>
      simp [blankFields, htitle, hcontent]
  rw [hfields, Blog.blankRefusal?]
  by_cases htitle : title = ""
  · by_cases hcontent : content = ""
    · rw [if_pos htitle, if_pos hcontent, if_pos htitle, if_pos hcontent]
      rfl
    · rw [if_pos htitle, if_neg hcontent, if_pos htitle, if_neg hcontent]
      rfl
  · by_cases hcontent : content = ""
    · rw [if_neg htitle, if_pos hcontent, if_neg htitle, if_pos hcontent]
      rfl
    · rw [if_neg htitle, if_neg hcontent, if_neg htitle, if_neg hcontent]
      rfl

/-- A plan did what the machine does: if the machine answers, it answers the same, and the tables
stand for the machine afterwards. -/
def Plan.Follows (now : Instant) (fresh : Nat → Uuid) (t : Tables) (plan : Plan)
    (said : Option (Except Error Reply) × Blog) : Prop :=
  (∀ answer, said.1 = some answer → (plan.effect now fresh t).answer = answer) ∧
    Represents (plan.effect now fresh t).tables said.2

section

variable {now : Instant} {fresh : Nat → Uuid} {t t' : Tables} {b : Blog} (hr : Represents t b)

include hr

theorem Represents.congr (hposts : t'.posts = t.posts) (hversions : t'.versions = t.versions) :
    Represents t' b where
  posts id := hposts ▸ hr.posts id
  versions id v := hversions ▸ hr.versions id v

theorem Plan.follows_refuse (e : Error) :
    (Plan.refuse e).Follows now fresh t (some (.error e), b) :=
  ⟨fun _ h => Option.some.inj h, hr⟩

theorem Plan.follows_change {body : Instant → Task Settled} {said : Except Error Reply × Blog}
    (h : Simulated b said ((body now).eval now fresh ⟨t, 0, []⟩)) :
    (Plan.change body).Follows now fresh t (some said.1, said.2) := by
  change (∀ answer, some said.1 = some answer → (Effect.settled t _).answer = answer) ∧
    Represents (Effect.settled t _).tables said.2
  generalize (body now).eval now fresh ⟨t, 0, []⟩ = meant at h ⊢
  cases h with
  | ok h => exact ⟨fun _ h => Option.some.inj h, h⟩
  | error => exact ⟨fun _ h => Option.some.inj h, hr⟩

/-- What only looks leaves the machine as it is. -/
theorem Plan.follows_look {task : Task Reply} {answer? : Option (Except Error Reply)}
    (honly : task.Only Access.IsQuery)
    (hanswer : ∀ answer, answer? = some answer → (task.eval now fresh ⟨t, 0, []⟩).1 = answer) :
    (Plan.look task).Follows now fresh t (answer?, b) := by
  have htables : ((Plan.look task).effect now fresh t).tables = t :=
    Script.eval_keeps (f := id) (fun a t ha => ha.keeps t) honly _
  exact ⟨hanswer, htables.symm ▸ hr⟩

/-- What writes neither posts nor versions leaves the machine as it is. -/
theorem Plan.follows_spare {body : Instant → Task Settled}
    (honly : (body now).Only Access.SparesPosts) :
    (Plan.change body).Follows now fresh t (none, b) := by
  refine ⟨fun _ h => absurd h (by simp), ?_⟩
  have hkeeps : ∀ a t, Access.SparesPosts a →
      ((Tables.ask t a).2.posts, (Tables.ask t a).2.versions) = (t.posts, t.versions) := by
    rintro _ t ⟨c, rfl, hc⟩
    exact Prod.ext (hc t).1 (hc t).2
  have hsame : (((body now).eval now fresh ⟨t, 0, []⟩).2.tables.posts,
      ((body now).eval now fresh ⟨t, 0, []⟩).2.tables.versions) = (t.posts, t.versions) :=
    Script.eval_keeps (f := fun t : Tables => (t.posts, t.versions)) hkeeps honly ⟨t, 0, []⟩
  change Represents (Effect.settled t _).tables b
  generalize (body now).eval now fresh ⟨t, 0, []⟩ = meant at hsame ⊢
  obtain ⟨_ | settled, ws⟩ := meant
  · exact hr
  · exact hr.congr (congrArg Prod.fst hsame) (congrArg Prod.snd hsame)

theorem eval_get (id : Uuid) :
    ((Posts.get id).eval now fresh ⟨t, 0, []⟩).1.map Reply.detail =
      b.getPost t.categoriesOf id := by
  have hquery : (Task.query (.currentPost id)).eval now fresh ⟨t, 0, []⟩ =
      (.ok (t.currentPost? id), ⟨t, 0, []⟩) := rfl
  unfold Posts.get Blog.getPost
  rw [Task.eval_bind_ok hquery, hr.currentPost?_eq]
  cases hget : b.get? id with
  | none => rfl
  | some h =>
    dsimp only
    cases hshown : h.shown? id with
    | none => rw [Option.bind_some, hshown]; rfl
    | some v => rw [Option.bind_some, hshown]; rfl

theorem eval_getVersion (id : Uuid) :
    ((Posts.getVersion id).eval now fresh ⟨t, 0, []⟩).1.map Reply.version = b.getVersion id := by
  have hquery : (Task.query (.version id)).eval now fresh ⟨t, 0, []⟩ =
      (.ok (t.versions.get? id), ⟨t, 0, []⟩) := rfl
  unfold Posts.getVersion Blog.getVersion
  rw [Task.eval_bind_ok hquery, ← hr.version?_eq]
  cases b.version? id <;> rfl

/-- **The commuting square.** An operation that no fault strikes does with the tables what the
machine does with the blog that they stand for. -/
theorem plan_follows (sanitizer : Sanitizer) (now : Instant) (fresh : Nat → Uuid) (op : Operation) :
    (op.plan sanitizer).Follows now fresh t (b.step sanitizer now fresh t.categoriesOf op) := by
  cases op with
  | createPost r =>
    simp only [Operation.plan, Blog.step, refuseBlank_eq]
    cases hblank : Blog.blankRefusal? (sanitizer r.title) (sanitizer r.content) with
    | some text =>
      simp only [Blog.create, hblank]
      exact Plan.follows_refuse hr _
    | none => exact Plan.follows_change hr (simulated_create hr r hblank)
  | updatePost id r =>
    simp only [Operation.plan, Blog.step]
    split
    · rename_i hblank
      simp only [Option.isNone_iff_eq_none] at hblank
      simp only [Blog.update, if_pos hblank]
      exact Plan.follows_refuse hr _
    · rename_i hgiven
      exact Plan.follows_change hr (simulated_update hr id r hgiven)
  | publishPost id => exact Plan.follows_change hr (simulated_publish hr id)
  | deleteDraft id => exact Plan.follows_change hr (simulated_deleteDraft hr id)
  | getPost id =>
    refine Plan.follows_look hr (.map _ (Posts.only_get id)) fun answer hanswer => ?_
    rw [Task.eval_map, eval_get hr]
    exact Option.some.inj hanswer
  | getVersion id =>
    refine Plan.follows_look hr (.map _ (Posts.only_getVersion id)) fun answer hanswer => ?_
    rw [Task.eval_map, eval_getVersion hr]
    exact Option.some.inj hanswer
  | createCategory r =>
    simp only [Operation.plan, Blog.step]
    split
    · exact ⟨fun _ h => absurd h (by simp), hr⟩
    · exact Plan.follows_spare hr (.map _ (Categories.only_createIn _ now))
  | updateCategory id r =>
    simp only [Operation.plan, Blog.step]
    split
    · exact ⟨fun _ h => absurd h (by simp), hr⟩
    · exact Plan.follows_spare hr (.map _ (Categories.only_renameIn id _ now))
  | getCategory id =>
    exact Plan.follows_look hr (.map _ (Categories.only_get id)) fun _ h => absurd h (by simp)
  | attach r =>
    simp only [Operation.plan, Blog.step]
    split
    · exact ⟨fun _ h => absurd h (by simp), hr⟩
    · exact Plan.follows_spare hr (.map _ (Categories.only_attachIn r now))

end

end Weblog

import Weblog.Proofs.Blog.Simulation

/-!
# What a step of the machine can be

`Blog.Stepped` lists everything that one step can do: it leaves the blog as it is, or it writes one
history in one of five ways. What holds of every step is proved case by case from
`Blog.stepped_step` and of the service from `effect_stepped`; no later proof opens the operations of
the machine.

* `Blog.Extends`: the publications of a post are never taken back and never change.
-/

namespace Weblog

/-- Whether an operation can change a post or its versions. -/
def Operation.changesPosts : Operation → Bool
  | createPost _ | updatePost .. | publishPost _ | deleteDraft _ => true
  | getPost _ | getVersion _ | createCategory _ | updateCategory .. | getCategory _ | attach _ =>
    false

namespace Blog

variable {sanitizer : Sanitizer} {now : Instant} {fresh : Nat → Uuid} {b b' : Blog}

/-- A step of the machine, by what was asked, what was answered, and what became of the blog. -/
inductive Stepped (sanitizer : Sanitizer) (now : Instant) (fresh : Nat → Uuid) (b : Blog) :
    Operation → Option (Except Error Reply) → Blog → Prop
  /-- The operation is about something else. -/
  | spare {op : Operation} {answer? : Option (Except Error Reply)}
    (hspares : op.changesPosts = false) : Stepped sanitizer now fresh b op answer? b
  | refused {op : Operation} {e : Error} : Stepped sanitizer now fresh b op (some (.error e)) b
  /-- A post is made, with a draft. -/
  | start {r : CreatePost} {d : Draft}
    (hd : d = { version := fresh 1, title := sanitizer r.title, content := sanitizer r.content
                created := now })
    (hgiven : d.title ≠ "" ∧ d.content ≠ "")
    (hget : b.get? (fresh 0) = none) (hunused : b.version? d.version = none) :
    Stepped sanitizer now fresh b (.createPost r)
      (some (.ok (.post (.of (d.toVersion (fresh 0) 1)))))
      (b.put (fresh 0) { created := now, updated := now, publications := [], draft := some d })
  /-- The draft is changed in its place. -/
  | amend {id : Uuid} {r : UpdatePost} {h : History} {d d' : Draft}
    (hget : b.get? id = some h) (hdraft : h.draft = some d)
    (hd' : d' = { d with title := (cleanOption sanitizer r.title).getD d.title
                         content := (cleanOption sanitizer r.content).getD d.content }) :
    Stepped sanitizer now fresh b (.updatePost id r)
      (some (.ok (.post (.of (d'.toVersion id (h.last + 1))))))
      (b.put id { h with draft := some d' })
  /-- A draft is started from the last publication. -/
  | stack {id : Uuid} {r : UpdatePost} {h : History} {p : Publication} {d : Draft}
    (hget : b.get? id = some h) (hdraft : h.draft = none)
    (hlast : h.publications.getLast? = some p)
    (hd : d = { version := fresh 0, title := (cleanOption sanitizer r.title).getD p.title
                content := (cleanOption sanitizer r.content).getD p.content, created := now })
    (hunused : b.version? d.version = none) :
    Stepped sanitizer now fresh b (.updatePost id r)
      (some (.ok (.post (.of (d.toVersion id (h.last + 1))))))
      (b.put id { h with updated := now, draft := some d })
  /-- The draft becomes the last publication. -/
  | publish {id : Uuid} {h : History} {d : Draft}
    (hget : b.get? id = some h) (hdraft : h.draft = some d) :
    Stepped sanitizer now fresh b (.publishPost id)
      (some (.ok (.published { post := id, version := d.version, published := now, title := d.title
                               content := d.content })))
      (b.put id { h with
        updated := now, publications := h.publications ++ [d.publish now], draft := none })
  /-- The draft is deleted. -/
  | drop {id : Uuid} {h : History} {d : Draft}
    (hget : b.get? id = some h) (hdraft : h.draft = some d) :
    Stepped sanitizer now fresh b (.deleteDraft id) (some (.ok .done))
      (b.put id { h with updated := now, draft := none })

theorem blankRefusal?_eq_none {title content : String} (h : blankRefusal? title content = none) :
    title ≠ "" ∧ content ≠ "" := by
  unfold blankRefusal? at h
  split at h
  · split at h <;> cases h
  · rename_i htitle
    split at h
    · cases h
    · rename_i hcontent
      exact ⟨htitle, hcontent⟩

theorem stepped_create (r : CreatePost) :
    Stepped sanitizer now fresh b (.createPost r) (some (b.create sanitizer now fresh r).1)
      (b.create sanitizer now fresh r).2 := by
  simp only [create]
  split
  · exact .refused
  · rename_i hgiven
    split
    · exact .refused
    · rename_i hpost
      split
      · exact .refused
      · rename_i hversion
        refine .start rfl (blankRefusal?_eq_none hgiven) ?_ (Option.not_isSome_iff_eq_none.mp hversion)
        exact Table.contains_eq_false_iff.mp (Bool.eq_false_iff.mpr hpost)

theorem stepped_update (id : Uuid) (r : UpdatePost) :
    Stepped sanitizer now fresh b (.updatePost id r) (some (b.update sanitizer now fresh id r).1)
      (b.update sanitizer now fresh id r).2 := by
  simp only [update]
  split
  · exact .refused
  · cases hget : b.get? id with
    | none => exact .refused
    | some h =>
      dsimp only
      split
      · rename_i d hdraft
        exact .amend hget hdraft rfl
      · rename_i p hdraft hlast
        split
        · exact .refused
        · rename_i hversion
          exact .stack hget hdraft hlast rfl (Option.not_isSome_iff_eq_none.mp hversion)
      · exact .refused

theorem stepped_publish (id : Uuid) :
    Stepped sanitizer now fresh b (.publishPost id) (some (b.publish now id).1)
      (b.publish now id).2 := by
  simp only [Blog.publish]
  cases hget : b.get? id with
  | none => exact .refused
  | some h =>
    dsimp only
    split
    · rename_i d hdraft
      exact .publish hget hdraft
    · exact .refused
    · exact .refused

theorem stepped_deleteDraft (id : Uuid) :
    Stepped sanitizer now fresh b (.deleteDraft id) (some (b.deleteDraft now id).1)
      (b.deleteDraft now id).2 := by
  simp only [deleteDraft]
  cases hget : b.get? id with
  | none => exact .refused
  | some h =>
    dsimp only
    split
    · rename_i d hdraft
      exact .drop hget hdraft
    · exact .refused
    · exact .refused

/-- Every step of the machine is one of those listed. -/
theorem stepped_step (sanitizer : Sanitizer) (now : Instant) (fresh : Nat → Uuid) (b : Blog)
    (categories : Uuid → List Category) (op : Operation) :
    Stepped sanitizer now fresh b op (b.step sanitizer now fresh categories op).1
      (b.step sanitizer now fresh categories op).2 := by
  cases op with
  | createPost r => exact stepped_create r
  | updatePost id r => exact stepped_update id r
  | publishPost id => exact stepped_publish id
  | deleteDraft id => exact stepped_deleteDraft id
  | getPost id | getVersion id | createCategory r | updateCategory id r | getCategory id
  | attach r => exact .spare rfl

end Blog

/-- An operation that no fault strikes takes a step: when the machine answers, that is the answer,
and the tables stand for the machine afterwards. -/
theorem effect_stepped {t : Tables} {b : Blog} (hr : Represents t b) (sanitizer : Sanitizer)
    (now : Instant) (fresh : Nat → Uuid) (op : Operation) :
    ∃ answer? b', Blog.Stepped sanitizer now fresh b op answer? b' ∧
      (∀ answer, answer? = some answer → (op.effect sanitizer now fresh t).answer = answer) ∧
      Represents (op.effect sanitizer now fresh t).tables b' :=
  ⟨_, _, b.stepped_step sanitizer now fresh t.categoriesOf op,
    plan_follows hr sanitizer now fresh op⟩

/-! ## Publications -/

namespace History

theorem published_mono (h : History) {h' : History}
    (hbegins : h.publications <+: h'.publications) (id : Uuid) :
    h.published id <+: h'.published id := by
  obtain ⟨later, hlater⟩ := hbegins
  unfold published
  rw [← hlater, List.mapIdx_append]
  exact List.prefix_append _ _

/-- A version that is published is a publication. -/
theorem mem_published {h : History} {id : Uuid} {v : Version} (hv : v ∈ h.versions id)
    (hpublished : v.published.isSome) : v ∈ h.published id := by
  rcases List.mem_append.mp hv with hv | hv
  · exact hv
  · obtain ⟨d, -, rfl⟩ := Option.map_eq_some_iff.mp (Option.mem_toList.mp hv)
    cases hpublished

end History

namespace Blog

variable {sanitizer : Sanitizer} {now : Instant} {fresh : Nat → Uuid} {b b' : Blog}

/-- Every post is still there, and its publications begin with those that it had. -/
def Extends (b b' : Blog) : Prop :=
  ∀ id h, b.get? id = some h →
    ∃ h', b'.get? id = some h' ∧ h.publications <+: h'.publications

theorem Extends.refl (b : Blog) : b.Extends b := by
  intro id h hget
  exact ⟨h, hget, List.prefix_refl _⟩

/-- A history may be written where there was none, or over one whose publications it begins with. -/
theorem Extends.put {id : Uuid} {h' : History}
    (hbegins : ∀ h, b.get? id = some h → h.publications <+: h'.publications) :
    b.Extends (b.put id h') := by
  intro post h hget
  rw [get?_put]
  by_cases hpost : post = id
  · rw [if_pos hpost]
    exact ⟨h', rfl, hbegins h (hpost ▸ hget)⟩
  · rw [if_neg hpost]
    exact ⟨h, hget, List.prefix_refl _⟩

theorem Extends.rewrite {id : Uuid} {h h' : History} (hget : b.get? id = some h)
    (hbegins : h.publications <+: h'.publications) : b.Extends (b.put id h') := by
  apply Extends.put
  intro h₀ hget₀
  cases hget.symm.trans hget₀
  exact hbegins

/-- No step takes a publication back. -/
theorem Stepped.extends {op : Operation} {answer? : Option (Except Error Reply)}
    (h : Stepped sanitizer now fresh b op answer? b') : b.Extends b' := by
  cases h with
  | spare hspares => exact .refl b
  | refused => exact .refl b
  | start hd hgiven hget hunused =>
    apply Extends.put
    intro h hget'
    rw [hget] at hget'
    cases hget'
  | amend hget hdraft hd' => exact .rewrite hget (List.prefix_refl _)
  | stack hget hdraft hlast hd hunused => exact .rewrite hget (List.prefix_refl _)
  | publish hget hdraft => exact .rewrite hget (List.prefix_append _ _)
  | drop hget hdraft => exact .rewrite hget (List.prefix_refl _)

/-- A published version stays a version of its post, the same in everything. -/
theorem Extends.mem_versionsOf {id : Uuid} {v : Version} (hextends : b.Extends b')
    (hv : v ∈ b.versionsOf id) (hpublished : v.published.isSome) : v ∈ b'.versionsOf id := by
  cases hget : b.get? id with
  | none =>
    rw [versionsOf_of_none hget] at hv
    cases hv
  | some h =>
    rw [versionsOf_of_get? hget] at hv
    obtain ⟨h', hget', hbegins⟩ := hextends id h hget
    rw [versionsOf_of_get? hget']
    apply List.mem_append_left
    exact (h.published_mono hbegins id).subset (History.mem_published hv hpublished)

end Blog

end Weblog

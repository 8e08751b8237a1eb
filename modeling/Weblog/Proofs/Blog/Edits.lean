import Weblog.Proofs.Blog.Refinement
import Weblog.Proofs.Visits

/-!
# Edits of one post in a row

An edit of a draft keeps its identifier, its number and its times, so of several edits in a row only
the last texts remain. An edit that follows another comes to what one edit with the texts of both
comes to at the time of the first (`effect_edit_again`), and so does a row of them.

* `UpdatePost.merge`: one edit for many, with the last text of each kind that is not blank.
* `effect_update_accepted_iff`: an edit of a post that has a version is accepted unless it is blank
  or has to start a draft under an identifier that is in use (`Tables.DraftCollides`).
* `edits_merge`: the edits of a row that are accepted leave what one edit in the place of the first
  of them leaves; those that are refused leave nothing. If the draft need not be started or can be,
  the blank ones are refused and no other, so that the one edit has the last texts of the row.
* `edits_not_merged`: an edit whose draft collides must be left out, since it may have had a text.
-/

namespace Weblog

/-! ## Texts -/

section

variable (sanitizer : Sanitizer)

/-- A text, if there is one and it is not blank when it is cleaned. -/
def givenText (raw : Option String) : Option String :=
  raw.filter (sanitizer · ≠ "")

/-- The last of some texts that is not blank when it is cleaned. -/
def lastGiven (texts : List (Option String)) : Option String :=
  (texts.filterMap (givenText sanitizer)).getLast?

theorem cleanOption_eq (raw : Option String) :
    cleanOption sanitizer raw = (givenText sanitizer raw).map sanitizer := by
  cases raw with
  | none => rfl
  | some text =>
    by_cases htext : sanitizer text = ""
    · simp [cleanOption, givenText, Option.filter, htext]
    · simp [cleanOption, givenText, Option.filter, htext]

theorem givenText_lastGiven (texts : List (Option String)) :
    givenText sanitizer (lastGiven sanitizer texts) = lastGiven sanitizer texts := by
  cases hlast : lastGiven sanitizer texts with
  | none => rfl
  | some text =>
    obtain ⟨raw, -, hraw⟩ := List.mem_filterMap.mp (List.mem_of_getLast? hlast)
    obtain ⟨-, hgiven⟩ := Option.filter_eq_some_iff.mp hraw
    exact Option.filter_eq_some_iff.mpr ⟨rfl, hgiven⟩

theorem lastGiven_concat (texts : List (Option String)) (raw : Option String) :
    lastGiven sanitizer (texts ++ [raw]) =
      (givenText sanitizer raw).or (lastGiven sanitizer texts) := by
  unfold lastGiven
  cases hraw : givenText sanitizer raw with
  | none => simp [hraw]
  | some text => simp [hraw]

/-- The last text is the one that is there already, unless there is a later one. -/
theorem cleanOption_lastGiven_concat (texts : List (Option String)) (raw : Option String) :
    cleanOption sanitizer (lastGiven sanitizer (texts ++ [raw])) =
      (cleanOption sanitizer raw).or (cleanOption sanitizer (lastGiven sanitizer texts)) := by
  have hgiven := givenText_lastGiven sanitizer (texts ++ [raw])
  rw [cleanOption_eq, hgiven, lastGiven_concat, cleanOption_eq, cleanOption_eq,
    givenText_lastGiven]
  cases givenText sanitizer raw <;> rfl

namespace UpdatePost

/-- Neither text of the edit is there and not blank. -/
def Blank (r : UpdatePost) : Prop :=
  cleanOption sanitizer r.title = none ∧ cleanOption sanitizer r.content = none

instance (r : UpdatePost) : Decidable (r.Blank sanitizer) :=
  inferInstanceAs (Decidable (_ ∧ _))

/-- One edit for many: the last title and the last content that are not blank. -/
def merge (edits : List UpdatePost) : UpdatePost :=
  { title := lastGiven sanitizer (edits.map (·.title))
    content := lastGiven sanitizer (edits.map (·.content)) }

/-- The text of a merged edit is what the last edit says, or else what those before it say. -/
theorem merge_concat (edits : List UpdatePost) (r : UpdatePost) :
    cleanOption sanitizer (merge sanitizer (edits ++ [r])).title =
        (cleanOption sanitizer r.title).or
          (cleanOption sanitizer (merge sanitizer edits).title) ∧
      cleanOption sanitizer (merge sanitizer (edits ++ [r])).content =
        (cleanOption sanitizer r.content).or
          (cleanOption sanitizer (merge sanitizer edits).content) := by
  simp only [merge, List.map_append, List.map_cons, List.map_nil, cleanOption_lastGiven_concat,
    and_self]

/-- One edit alone says what it says. -/
theorem merge_singleton (r : UpdatePost) :
    cleanOption sanitizer (merge sanitizer [r]).title = cleanOption sanitizer r.title ∧
      cleanOption sanitizer (merge sanitizer [r]).content = cleanOption sanitizer r.content := by
  obtain ⟨htitle, hcontent⟩ := merge_concat sanitizer [] r
  exact ⟨htitle.trans Option.or_none, hcontent.trans Option.or_none⟩

/-- What is blank adds nothing to a merged edit. -/
theorem merge_filter (edits : List UpdatePost) :
    merge sanitizer (edits.filter fun r => ¬ r.Blank sanitizer) = merge sanitizer edits := by
  have hsame (text : UpdatePost → Option String)
      (htext : ∀ r : UpdatePost, r.Blank sanitizer → cleanOption sanitizer (text r) = none) :
      lastGiven sanitizer ((edits.filter fun r => ¬ r.Blank sanitizer).map text) =
        lastGiven sanitizer (edits.map text) := by
    unfold lastGiven
    rw [List.filterMap_map, List.filterMap_map, List.filterMap_filter]
    congr 2
    funext r
    by_cases hblank : r.Blank sanitizer
    · have hnone := htext r hblank
      rw [cleanOption_eq, Option.map_eq_none_iff] at hnone
      simp [hblank, hnone]
    · simp [hblank]
  simp only [merge, hsame (·.title) fun _ hblank => hblank.1,
    hsame (·.content) fun _ hblank => hblank.2]

end UpdatePost

/-- The draft with the text that an edit gives it; what the edit leaves out or leaves blank
stays. -/
def Draft.edit (r : UpdatePost) (d : Draft) : Draft :=
  { d with title := (cleanOption sanitizer r.title).getD d.title
           content := (cleanOption sanitizer r.content).getD d.content }

variable {sanitizer}

/-- Of two edits the later one counts where it says something. -/
theorem Draft.edit_edit {r r' r'' : UpdatePost}
    (htitle : cleanOption sanitizer r''.title =
      (cleanOption sanitizer r'.title).or (cleanOption sanitizer r.title))
    (hcontent : cleanOption sanitizer r''.content =
      (cleanOption sanitizer r'.content).or (cleanOption sanitizer r.content)) (d : Draft) :
    (d.edit sanitizer r).edit sanitizer r' = d.edit sanitizer r'' := by
  unfold edit
  rw [htitle, hcontent, Option.getD_or, Option.getD_or]

end

/-- A draft with the text of a publication. -/
def Publication.copy (p : Publication) (version : Uuid) (now : Instant) : Draft :=
  { version, title := p.title, content := p.content, created := now }

/-- Of two rows under one key the later one is left. -/
theorem Tables.withVersion_withVersion (t : Tables) (v v' : Version) (hid : v'.id = v.id) :
    (t.withVersion v).withVersion v' = t.withVersion v' := by
  simp only [withVersion, hid, Table.insert_insert]

/-! ## Drafts that collide -/

/-- An edit of a post has to start a draft, since its latest version is published, and cannot, since
the identifier for the draft is that of a version. -/
def Tables.DraftCollides (t : Tables) (post fresh : Uuid) : Prop :=
  (∃ v ∈ latestVersion? t.versions.rows post, v.published.isSome) ∧ t.versions.contains fresh

instance (t : Tables) (post fresh : Uuid) : Decidable (t.DraftCollides post fresh) :=
  inferInstanceAs (Decidable (_ ∧ _))

namespace Represents

variable {t : Tables} {b : Blog} (hr : Represents t b) {id : Uuid} {h : History}

include hr

/-- A post that has a version has a draft or, without one, a publication. -/
theorem isSome_latest_iff :
    (latestVersion? t.versions.rows id).isSome ↔ ∃ h, b.get? id = some h ∧
      ((∃ d, h.draft = some d) ∨ ∃ p, h.draft = none ∧ h.publications.getLast? = some p) := by
  constructor
  · intro hsome
    cases hget : b.get? id with
    | none =>
      rw [hr.latest, Blog.versionsOf_of_none hget] at hsome
      cases hsome
    | some h =>
      refine ⟨h, rfl, ?_⟩
      cases hdraft : h.draft with
      | some d => exact .inl ⟨d, rfl⟩
      | none =>
        cases hlast : h.publications.getLast? with
        | some p => exact .inr ⟨p, rfl, rfl⟩
        | none =>
          rw [hr.latest_of_get? hget, History.shown?_of_nothing hdraft hlast] at hsome
          cases hsome
  · rintro ⟨h, hget, ⟨d, hdraft⟩ | ⟨p, hdraft, hlast⟩⟩
    · rw [hr.latest_of_draft hget hdraft]
      rfl
    · rw [hr.latest_of_get? hget, History.shown?_of_last hdraft hlast]
      rfl

/-- Where there is a draft, none has to be started. -/
theorem not_collides_of_draft {d : Draft} (hget : b.get? id = some h) (hdraft : h.draft = some d)
    (fresh : Uuid) : ¬ t.DraftCollides id fresh := by
  rintro ⟨⟨v, hv, hpublished⟩, -⟩
  rw [Option.mem_def, hr.latest_of_draft hget hdraft] at hv
  cases hv
  cases hpublished

theorem collides_iff_of_last {p : Publication} (hget : b.get? id = some h) (hdraft : h.draft = none)
    (hlast : h.publications.getLast? = some p) (fresh : Uuid) :
    t.DraftCollides id fresh ↔ (b.version? fresh).isSome := by
  rw [hr.version?_eq]
  refine ⟨And.right, fun hused => ⟨⟨p.toVersion id h.last, ?_, rfl⟩, hused⟩⟩
  rw [Option.mem_def, hr.latest_of_get? hget, History.shown?_of_last hdraft hlast]

end Represents

/-! ## Effects -/

section

variable {sanitizer : Sanitizer} {now now' : Instant} {fresh fresh' : Nat → Uuid} {t : Tables}
  {id : Uuid} {r r' r'' : UpdatePost} {reply reply' : Reply}

theorem effect_update_of_blank (hblank : r.Blank sanitizer) :
    (Operation.updatePost id r).effect sanitizer now fresh t =
      ⟨.error (.invalidInput "title or content is required"), t, 0, 0, []⟩ := by
  obtain ⟨htitle, hcontent⟩ := hblank
  simp only [Operation.effect, Operation.plan, htitle, hcontent, Option.isNone_none, and_self,
    if_true, Plan.effect]

/-- An edit that is not blank evaluates its body. -/
theorem effect_update_of_given (hgiven : ¬ r.Blank sanitizer) :
    (Operation.updatePost id r).effect sanitizer now fresh t =
      .settled t (((fun v => ⟨.post (.of v), none⟩) <$> Posts.updateIn id
        (cleanOption sanitizer r.title) (cleanOption sanitizer r.content) now).eval now fresh
          ⟨t, 0, []⟩) := by
  have hnone : ¬ ((cleanOption sanitizer r.title).isNone ∧
      (cleanOption sanitizer r.content).isNone) := by
    simp only [Option.isNone_iff_eq_none]
    exact hgiven
  simp only [Operation.effect, Operation.plan, if_neg hnone, Plan.effect]

/-- Of an edit only the cleaned texts count. -/
theorem effect_update_congr
    (htitle : cleanOption sanitizer r'.title = cleanOption sanitizer r.title)
    (hcontent : cleanOption sanitizer r'.content = cleanOption sanitizer r.content) :
    (Operation.updatePost id r').effect sanitizer now fresh t =
      (Operation.updatePost id r).effect sanitizer now fresh t := by
  simp only [Operation.effect, Operation.plan, htitle, hcontent]

theorem given_of_accepted
    (hok : ((Operation.updatePost id r).effect sanitizer now fresh t).answer = .ok reply) :
    ¬ r.Blank sanitizer := by
  intro hblank
  rw [effect_update_of_blank hblank] at hok
  cases hok

variable {b : Blog} (hr : Represents t b) {h : History} {d : Draft} {p : Publication}

include hr

/-- An edit of a draft writes the draft anew. -/
theorem effect_update_of_draft (hget : b.get? id = some h) (hdraft : h.draft = some d)
    (hgiven : ¬ r.Blank sanitizer) :
    let v := (d.edit sanitizer r).toVersion id (h.last + 1)
    (Operation.updatePost id r).effect sanitizer now fresh t =
      ⟨.ok (.post (.of v)), t.withVersion v, 1, 0, [.draftAmended id v.id v.number]⟩ := by
  intro v
  rw [effect_update_of_given hgiven, Task.eval_map, eval_updateIn_of_draft hr id hget hdraft]
  rfl

/-- An edit of a published text writes a draft after it, under an identifier that is not in use. -/
theorem effect_update_of_last (hget : b.get? id = some h) (hdraft : h.draft = none)
    (hlast : h.publications.getLast? = some p) (hgiven : ¬ r.Blank sanitizer)
    (hunused : b.version? (fresh 0) = none) :
    let d := (p.copy (fresh 0) now).edit sanitizer r
    let v := d.toVersion id (h.last + 1)
    let h' : History := { h with updated := now, draft := some d }
    (Operation.updatePost id r).effect sanitizer now fresh t =
      ⟨.ok (.post (.of v)), (t.withVersion v).withPost (h'.post id), 1, 1,
        [.draftStacked id v.id v.number]⟩ := by
  intro d v h'
  have hnew : ¬ (b.version? (fresh 0)).isSome := by simp [hunused]
  rw [effect_update_of_given hgiven, Task.eval_map,
    eval_updateIn_of_last hr id hget hdraft hlast, if_neg hnew]
  rfl

/-- An accepted edit found a post with a draft, or with a publication and an identifier for a
draft. -/
theorem of_accepted
    (hok : ((Operation.updatePost id r).effect sanitizer now fresh t).answer = .ok reply) :
    ∃ h, b.get? id = some h ∧ ((∃ d, h.draft = some d) ∨
      ∃ p, h.draft = none ∧ h.publications.getLast? = some p ∧ b.version? (fresh 0) = none) := by
  rw [effect_update_of_given (given_of_accepted hok), Task.eval_map] at hok
  cases hget : b.get? id with
  | none =>
    rw [Posts.updateIn, hr.eval_locks_of_none hget] at hok
    cases hok
  | some h =>
    refine ⟨h, rfl, ?_⟩
    cases hdraft : h.draft with
    | some d => exact .inl ⟨d, rfl⟩
    | none =>
      cases hlast : h.publications.getLast? with
      | none =>
        rw [Posts.updateIn,
          hr.eval_locks_of_nothing hget (History.shown?_of_nothing hdraft hlast)] at hok
        cases hok
      | some p =>
        refine .inr ⟨p, rfl, rfl, ?_⟩
        rw [eval_updateIn_of_last hr id hget hdraft hlast] at hok
        split at hok
        · cases hok
        · rename_i hunused
          exact Option.not_isSome_iff_eq_none.mp hunused

/-- An edit of a post that has a version is accepted unless it is blank or its draft collides. -/
theorem effect_update_accepted_iff (hsome : (latestVersion? t.versions.rows id).isSome) :
    (∃ reply, ((Operation.updatePost id r).effect sanitizer now fresh t).answer = .ok reply) ↔
      ¬ r.Blank sanitizer ∧ ¬ t.DraftCollides id (fresh 0) := by
  obtain ⟨h, hget, ⟨d, hdraft⟩ | ⟨p, hdraft, hlast⟩⟩ := hr.isSome_latest_iff.mp hsome
  · have hfits := hr.not_collides_of_draft hget hdraft (fresh 0)
    refine ⟨fun ⟨_, hok⟩ => ⟨given_of_accepted hok, hfits⟩, fun ⟨hgiven, _⟩ => ?_⟩
    rw [effect_update_of_draft hr hget hdraft hgiven]
    exact ⟨_, rfl⟩
  · rw [hr.collides_iff_of_last hget hdraft hlast, Option.not_isSome_iff_eq_none]
    constructor
    · rintro ⟨reply, hok⟩
      refine ⟨given_of_accepted hok, ?_⟩
      obtain ⟨h', hget', ⟨d, hdraft'⟩ | ⟨_, -, -, hunused⟩⟩ := of_accepted hr hok
      · obtain rfl := Option.some.inj (hget.symm.trans hget')
        cases hdraft.symm.trans hdraft'
      · exact hunused
    · rintro ⟨hgiven, hunused⟩
      rw [effect_update_of_last hr hget hdraft hlast hgiven hunused]
      exact ⟨_, rfl⟩

theorem isSome_latest_of_accepted
    (hok : ((Operation.updatePost id r).effect sanitizer now fresh t).answer = .ok reply) :
    (latestVersion? t.versions.rows id).isSome := by
  obtain ⟨h, hget, hdraft | ⟨p, hdraft, hlast, -⟩⟩ := of_accepted hr hok
  · exact hr.isSome_latest_iff.mpr ⟨h, hget, .inl hdraft⟩
  · exact hr.isSome_latest_iff.mpr ⟨h, hget, .inr ⟨p, hdraft, hlast⟩⟩

/-- An accepted edit leaves a draft, so that none has to be started after it. -/
theorem drafted_of_accepted
    (hok : ((Operation.updatePost id r).effect sanitizer now fresh t).answer = .ok reply) :
    let t' := ((Operation.updatePost id r).effect sanitizer now fresh t).tables
    ∃ b', Represents t' b' ∧ (latestVersion? t'.versions.rows id).isSome ∧
      ∀ fresh, ¬ t'.DraftCollides id fresh := by
  intro t'
  have hgiven := given_of_accepted hok
  obtain ⟨b', h', d', hr', hget', hdraft'⟩ :
      ∃ b' h' d', Represents t' b' ∧ b'.get? id = some h' ∧ h'.draft = some d' := by
    obtain ⟨h, hget, ⟨d, hdraft⟩ | ⟨p, hdraft, hlast, hunused⟩⟩ := of_accepted hr hok
    · let h' : History := { h with draft := some (d.edit sanitizer r) }
      refine ⟨b.put id h', h', _, ?_, (b.get?_put id id h').trans (if_pos rfl), rfl⟩
      simp only [t', effect_update_of_draft hr hget hdraft hgiven]
      exact hr.amendDraft hget hdraft rfl
    · let d := (p.copy (fresh 0) now).edit sanitizer r
      let h' : History := { h with updated := now, draft := some d }
      refine ⟨b.put id h', h', _, ?_, (b.get?_put id id h').trans (if_pos rfl), rfl⟩
      simp only [t', effect_update_of_last hr hget hdraft hlast hgiven hunused]
      exact hr.startDraft now hget hdraft hunused
  exact ⟨b', hr', hr'.isSome_latest_iff.mpr ⟨h', hget', .inl ⟨d', hdraft'⟩⟩,
    hr'.not_collides_of_draft hget' hdraft'⟩

/-- **Two edits.** An edit that is accepted after another one comes to what one edit with the texts
of both comes to in the place of the first, whatever the time of the second. -/
theorem effect_edit_again
    (hok : ((Operation.updatePost id r).effect sanitizer now fresh t).answer = .ok reply)
    (hok' : ((Operation.updatePost id r').effect sanitizer now' fresh'
      ((Operation.updatePost id r).effect sanitizer now fresh t).tables).answer = .ok reply')
    (htitle : cleanOption sanitizer r''.title =
      (cleanOption sanitizer r'.title).or (cleanOption sanitizer r.title))
    (hcontent : cleanOption sanitizer r''.content =
      (cleanOption sanitizer r'.content).or (cleanOption sanitizer r.content)) :
    ((Operation.updatePost id r'').effect sanitizer now fresh t).answer = .ok reply' ∧
      ((Operation.updatePost id r'').effect sanitizer now fresh t).tables =
        ((Operation.updatePost id r').effect sanitizer now' fresh'
          ((Operation.updatePost id r).effect sanitizer now fresh t).tables).tables := by
  have hgiven := given_of_accepted hok
  have hgiven' := given_of_accepted hok'
  have hgiven'' : ¬ r''.Blank sanitizer := by
    rintro ⟨htitle', hcontent'⟩
    rw [htitle, Option.or_eq_none_iff] at htitle'
    rw [hcontent, Option.or_eq_none_iff] at hcontent'
    exact hgiven' ⟨htitle'.1, hcontent'.1⟩
  obtain ⟨h, hget, ⟨d, hdraft⟩ | ⟨p, hdraft, hlast, hunused⟩⟩ := of_accepted hr hok
  · have hmerged := d.edit_edit htitle hcontent
    let h' : History := { h with draft := some (d.edit sanitizer r) }
    have hget' : (b.put id h').get? id = some h' := (b.get?_put id id h').trans (if_pos rfl)
    have hr' : Represents (t.withVersion ((d.edit sanitizer r).toVersion id (h.last + 1)))
        (b.put id h') := hr.amendDraft hget hdraft rfl
    rw [effect_update_of_draft hr hget hdraft hgiven] at hok' ⊢
    rw [effect_update_of_draft hr' hget' rfl hgiven', hmerged] at hok' ⊢
    rw [effect_update_of_draft hr hget hdraft hgiven'']
    have hlater := t.withVersion_withVersion ((d.edit sanitizer r).toVersion id (h.last + 1))
      ((d.edit sanitizer r'').toVersion id (h.last + 1)) rfl
    exact ⟨hok', hlater.symm⟩
  · have hmerged := (p.copy (fresh 0) now).edit_edit htitle hcontent
    let d := (p.copy (fresh 0) now).edit sanitizer r
    let h' : History := { h with updated := now, draft := some d }
    have hget' : (b.put id h').get? id = some h' := (b.get?_put id id h').trans (if_pos rfl)
    have hr' : Represents ((t.withVersion (d.toVersion id (h.last + 1))).withPost (h'.post id))
        (b.put id h') := hr.startDraft now hget hdraft hunused
    rw [effect_update_of_last hr hget hdraft hlast hgiven hunused] at hok' ⊢
    rw [effect_update_of_draft hr' hget' rfl hgiven', hmerged] at hok' ⊢
    rw [effect_update_of_last hr hget hdraft hlast hgiven'' hunused]
    have hlater := t.withVersion_withVersion (d.toVersion id (h.last + 1))
      (((p.copy (fresh 0) now).edit sanitizer r'').toVersion id (h.last + 1)) rfl
    exact ⟨hok', congrArg (Tables.withPost · (h'.post id)) hlater.symm⟩

end

/-! ## Runs -/

/-- The edits of a row that were accepted. -/
def acceptedEdits (edits : List UpdatePost) (outcomes : List (Outcome (Except Error Reply))) :
    List UpdatePost :=
  ((edits.zip outcomes).filter (·.2.reply?.isSome)).map (·.1)

theorem acceptedEdits_cons (r : UpdatePost) (edits : List UpdatePost)
    (o : Outcome (Except Error Reply)) (outcomes : List (Outcome (Except Error Reply))) :
    acceptedEdits (r :: edits) (o :: outcomes) =
      (if o.reply?.isSome then [r] else []) ++ acceptedEdits edits outcomes := by
  unfold acceptedEdits
  rw [List.zip_cons_cons, List.filter_cons]
  split <;> rfl

section

variable (s : Surroundings) (sanitizer : Sanitizer) {w : World} {t : Tables} {id : Uuid}

/-- What an edit comes to in a run. -/
theorem perform_edit_cases (id : Uuid) (r : UpdatePost) (hfree : w.store.Free t) :
    let ran := (Operation.updatePost id r).perform s sanitizer w
    let effect := (Operation.updatePost id r).effect sanitizer (s.clock w.clockReads)
      (fun n => s.ids (w.idsUsed + n)) t
    (ran.1.reply? = none ∧ ran.2.store.Free t) ∨
      ∃ reply, ran.1.reply? = some reply ∧ effect.answer = .ok reply ∧
        ran.2.store.Free effect.tables := by
  intro ran effect
  cases hreply : ran.1.reply? with
  | none => exact .inl ⟨rfl, perform_of_fails s sanitizer _ hfree (Outcome.fails_of_reply? hreply)⟩
  | some reply => exact .inr ⟨reply, rfl, perform_of_ok hfree (Outcome.eq_of_reply? hreply)⟩

/-- A refused edit adds nothing to what is accepted and replied. -/
theorem performAll_of_refused {r : UpdatePost} (rest : List UpdatePost)
    (hrefused : ((Operation.updatePost id r).perform s sanitizer w).1.reply? = none) :
    let ran := performAll s sanitizer ((r :: rest).map (.updatePost id)) w
    let later := performAll s sanitizer (rest.map (.updatePost id))
      ((Operation.updatePost id r).perform s sanitizer w).2
    ran.2 = later.2 ∧ acceptedEdits (r :: rest) ran.1 = acceptedEdits rest later.1 ∧
      ran.1.filterMap Outcome.reply? = later.1.filterMap Outcome.reply? := by
  simp only [List.map_cons, performAll, acceptedEdits_cons, List.filterMap_cons, hrefused,
    Option.isSome_none, Bool.false_eq_true, if_false, List.nil_append, and_self]

theorem performAll_of_accepted {r : UpdatePost} {reply : Reply} (rest : List UpdatePost)
    (haccepted : ((Operation.updatePost id r).perform s sanitizer w).1.reply? = some reply) :
    let ran := performAll s sanitizer ((r :: rest).map (.updatePost id)) w
    let later := performAll s sanitizer (rest.map (.updatePost id))
      ((Operation.updatePost id r).perform s sanitizer w).2
    ran.2 = later.2 ∧ acceptedEdits (r :: rest) ran.1 = r :: acceptedEdits rest later.1 ∧
      ran.1.filterMap Outcome.reply? = reply :: later.1.filterMap Outcome.reply? := by
  simp only [List.map_cons, performAll, acceptedEdits_cons, List.filterMap_cons, haccepted,
    Option.isSome_some, if_true, List.singleton_append, and_self]

/-- The first edit of a row that is accepted finds the store as it was. -/
theorem performAll_first (id : Uuid) (edits : List UpdatePost) (hfree : w.store.Free t)
    (hsome : acceptedEdits edits (performAll s sanitizer (edits.map (.updatePost id)) w).1 ≠ []) :
    ∃ refused first rest, edits = refused ++ first :: rest ∧
      let ran := performAll s sanitizer (edits.map (.updatePost id)) w
      let before := performAll s sanitizer (refused.map (.updatePost id)) w
      let row := performAll s sanitizer ((first :: rest).map (.updatePost id)) before.2
      acceptedEdits refused before.1 = [] ∧ before.2.store.Free t ∧
      ((Operation.updatePost id first).perform s sanitizer before.2).1.reply?.isSome ∧
      ran.2 = row.2 ∧ acceptedEdits edits ran.1 = acceptedEdits (first :: rest) row.1 ∧
      ran.1.filterMap Outcome.reply? = row.1.filterMap Outcome.reply? := by
  induction edits generalizing w with
  | nil => exact absurd rfl hsome
  | cons r edits ih =>
    rcases perform_edit_cases s sanitizer id r hfree with ⟨hreply, hfree'⟩ | ⟨reply, hreply, -, -⟩
    · obtain ⟨-, haccepted, hreplies⟩ := performAll_of_refused s sanitizer edits hreply
      rw [haccepted] at hsome
      obtain ⟨refused, first, rest, rfl, hnone, hstill, hfirst, hlast, haccepted', hreplies'⟩ :=
        ih hfree' hsome
      obtain ⟨-, hrefused, -⟩ := performAll_of_refused s sanitizer refused hreply
      exact ⟨r :: refused, first, rest, rfl, hrefused.trans hnone, hstill, hfirst, hlast,
        haccepted.trans haccepted', hreplies.trans hreplies'⟩
    · exact ⟨[], r, edits, rfl, rfl, hfree, Option.isSome_iff_exists.mpr ⟨reply, hreply⟩, rfl,
        rfl, rfl⟩

/-- A blank edit is refused and takes no identifier. -/
theorem perform_blank_edit {r : UpdatePost} (hblank : r.Blank sanitizer) (hfree : w.store.Free t)
    (hcalm : s.Calm w.trace ((Operation.updatePost id r).perform s sanitizer w).2.trace) :
    let ran := (Operation.updatePost id r).perform s sanitizer w
    ran.1.reply? = none ∧ ran.2.store.Free t ∧ ran.2.idsUsed = w.idsUsed := by
  intro ran
  cases perform_cases s sanitizer (.updatePost id r) hfree with
  | struck hstruck _ _ => exact absurd hcalm hstruck
  | done _ hanswer hstore _ hids _ =>
    rw [effect_update_of_blank hblank] at hanswer hstore hids
    exact ⟨congrArg Outcome.reply? hanswer, hstore, hids⟩

variable {b : Blog} (hr : Represents t b)

include hr

/-- Without a fault an edit of a post that has a version is refused just if it is blank or its draft
collides. -/
theorem perform_edit_refused_iff {r : UpdatePost} (hfree : w.store.Free t)
    (hsome : (latestVersion? t.versions.rows id).isSome)
    (hcalm : s.Calm w.trace ((Operation.updatePost id r).perform s sanitizer w).2.trace) :
    ((Operation.updatePost id r).perform s sanitizer w).1.reply? = none ↔
      r.Blank sanitizer ∨ t.DraftCollides id (s.ids w.idsUsed) := by
  have haccepted : (∃ reply, ((Operation.updatePost id r).effect sanitizer (s.clock w.clockReads)
      (fun n => s.ids (w.idsUsed + n)) t).answer = .ok reply) ↔ _ :=
    effect_update_accepted_iff hr hsome
  rw [(perform_of_calm hfree hcalm).1]
  cases hanswer : ((Operation.updatePost id r).effect sanitizer (s.clock w.clockReads)
    (fun n => s.ids (w.idsUsed + n)) t).answer with
  | ok reply =>
    have hfits := haccepted.mp ⟨reply, hanswer⟩
    refine ⟨fun hnone => ?_, fun hrefused => absurd hrefused (not_or.mpr hfits)⟩
    cases hnone
  | error e =>
    refine ⟨fun _ => Classical.byContradiction fun hfits => ?_, fun _ => rfl⟩
    obtain ⟨reply, hok⟩ := haccepted.mpr (not_or.mp hfits)
    cases hanswer.symm.trans hok

/-- A post that has a version still has one after some edits, whatever faults strike them. -/
theorem performAll_edits_latest (edits : List UpdatePost) (hfree : w.store.Free t)
    (hsome : (latestVersion? t.versions.rows id).isSome) :
    ∃ t' b', (performAll s sanitizer (edits.map (.updatePost id)) w).2.store.Free t' ∧
      Represents t' b' ∧ (latestVersion? t'.versions.rows id).isSome := by
  induction edits generalizing w t b with
  | nil => exact ⟨t, b, hfree, hr, hsome⟩
  | cons r rest ih =>
    obtain ⟨-, hfree'⟩ | ⟨_, -, hok, hfree'⟩ := perform_edit_cases s sanitizer id r hfree
    · exact ih hr hfree' hsome
    · obtain ⟨b', hr', hsome', -⟩ := drafted_of_accepted hr hok
      exact ih hr' hfree' hsome'

/-- Without faults the edits of a row that are accepted are those that are not blank, if the first
of them finds a draft or can start one. -/
theorem acceptedEdits_of_calm (edits : List UpdatePost) (hfree : w.store.Free t)
    (hsome : (latestVersion? t.versions.rows id).isSome)
    (hfits : ¬ t.DraftCollides id (s.ids w.idsUsed))
    (hcalm : s.Calm w.trace (performAll s sanitizer (edits.map (.updatePost id)) w).2.trace) :
    acceptedEdits edits (performAll s sanitizer (edits.map (.updatePost id)) w).1 =
      edits.filter fun r => ¬ r.Blank sanitizer := by
  induction edits generalizing w t b with
  | nil => rfl
  | cons r rest ih =>
    obtain ⟨hfirst, hrest⟩ := (calm_performAll_cons_iff s sanitizer _ w (.updatePost id r)).mp hcalm
    by_cases hblank : r.Blank sanitizer
    · -- the identifier is left for the next one
      obtain ⟨hreply, hfree', hids⟩ := perform_blank_edit s sanitizer hblank hfree hfirst
      have hlater := ih hr hfree' hsome (hids ▸ hfits) hrest
      rw [(performAll_of_refused s sanitizer rest hreply).2.1, hlater]
      simp [hblank]
    · -- after it there is a draft, so that no other has to be started
      obtain ⟨hreply, -⟩ | ⟨reply, hreply, hok, hfree'⟩ := perform_edit_cases s sanitizer id r hfree
      · have hrefused := (perform_edit_refused_iff s sanitizer hr hfree hsome hfirst).mp hreply
        exact absurd hrefused (not_or.mpr ⟨hblank, hfits⟩)
      · obtain ⟨b', hr', hsome', hfits'⟩ := drafted_of_accepted hr hok
        have hlater := ih hr' hfree' hsome' (hfits' _) hrest
        rw [(performAll_of_accepted s sanitizer rest hreply).2.1, hlater]
        simp [hblank]

theorem merge_accepted_of_calm (edits : List UpdatePost) (hfree : w.store.Free t)
    (hsome : (latestVersion? t.versions.rows id).isSome)
    (hfits : ¬ t.DraftCollides id (s.ids w.idsUsed))
    (hcalm : s.Calm w.trace (performAll s sanitizer (edits.map (.updatePost id)) w).2.trace) :
    UpdatePost.merge sanitizer
        (acceptedEdits edits (performAll s sanitizer (edits.map (.updatePost id)) w).1) =
      .merge sanitizer edits := by
  rw [acceptedEdits_of_calm s sanitizer hr edits hfree hsome hfits hcalm, UpdatePost.merge_filter]

variable {now : Instant} {fresh : Nat → Uuid}

/-- The edits of a row that comes after an accepted edit are merged into that one. -/
theorem performAll_edits (rest : List UpdatePost) {done : List UpdatePost} {reply : Reply}
    (hok : ((Operation.updatePost id (.merge sanitizer done)).effect sanitizer now fresh t).answer =
      .ok reply)
    (hfree : w.store.Free
      ((Operation.updatePost id (.merge sanitizer done)).effect sanitizer now fresh t).tables) :
    let ran := performAll s sanitizer (rest.map (.updatePost id)) w
    let once := (Operation.updatePost id
      (.merge sanitizer (done ++ acceptedEdits rest ran.1))).effect sanitizer now fresh t
    once.answer = .ok ((ran.1.filterMap Outcome.reply?).getLast?.getD reply) ∧
      ran.2.store.Free once.tables := by
  induction rest generalizing w done reply with
  | nil =>
    change (Operation.effect _ (.updatePost id (.merge sanitizer (done ++ []))) _ _ _).answer = _ ∧
      Store.Free _
        (Operation.effect _ (.updatePost id (.merge sanitizer (done ++ []))) _ _ _).tables
    rw [List.append_nil]
    exact ⟨hok, hfree⟩
  | cons r rest ih =>
    intro ran
    rcases perform_edit_cases s sanitizer id r hfree with ⟨hreply, hfree'⟩ |
      ⟨reply', hreply, hok', hfree'⟩
    · obtain ⟨hlast, haccepted, hreplies⟩ := performAll_of_refused s sanitizer rest hreply
      simp only [ran, hlast, haccepted, hreplies]
      exact ih hok hfree'
    · obtain ⟨hlast, haccepted, hreplies⟩ := performAll_of_accepted s sanitizer rest hreply
      obtain ⟨htitle, hcontent⟩ := UpdatePost.merge_concat sanitizer done r
      obtain ⟨hmerged, htables⟩ := effect_edit_again hr hok hok' htitle hcontent
      have hlater := ih hmerged (htables ▸ hfree')
      simp only [ran, hlast, haccepted, hreplies, List.getLast?_cons, Option.getD_some]
      rw [List.append_cons]
      exact hlater

/-- A row whose first edit is accepted comes to one edit in the place of that one. -/
theorem performAll_row {first : UpdatePost} (rest : List UpdatePost) (hfree : w.store.Free t)
    (hfirst : ((Operation.updatePost id first).perform s sanitizer w).1.reply?.isSome) :
    let row := performAll s sanitizer ((first :: rest).map (.updatePost id)) w
    let one := UpdatePost.merge sanitizer (acceptedEdits (first :: rest) row.1)
    let once := (Operation.updatePost id one).perform (.undisturbed s.clock s.ids) sanitizer w
    once.1.reply? = (row.1.filterMap Outcome.reply?).getLast? ∧ once.1.reply?.isSome ∧
      once.2.store = row.2.store := by
  intro row one once
  obtain ⟨reply, hreply⟩ := Option.isSome_iff_exists.mp hfirst
  obtain ⟨hok, hfree'⟩ := perform_of_ok hfree (Outcome.eq_of_reply? hreply)
  obtain ⟨hlast, haccepted, hreplies⟩ := performAll_of_accepted s sanitizer rest hreply
  -- the first edit is the merge of itself, and the others follow it
  obtain ⟨htitle, hcontent⟩ := UpdatePost.merge_singleton sanitizer first
  have halone : (Operation.updatePost id (.merge sanitizer [first])).effect sanitizer
      (s.clock w.clockReads) (fun n => s.ids (w.idsUsed + n)) t = _ :=
    effect_update_congr htitle hcontent
  obtain ⟨hanswer, htables⟩ := performAll_edits s sanitizer hr rest
    ((congrArg Effect.answer halone).trans hok) ((congrArg Effect.tables halone) ▸ hfree')
  have hone : one = .merge sanitizer ([first] ++ acceptedEdits rest (performAll s sanitizer
      (rest.map (.updatePost id)) ((Operation.updatePost id first).perform s sanitizer w).2).1) :=
    congrArg (UpdatePost.merge sanitizer) haccepted
  rw [← hone] at hanswer htables
  have hreplied : (row.1.filterMap Outcome.reply?).getLast? = some _ :=
    (congrArg List.getLast? hreplies).trans List.getLast?_cons
  obtain ⟨honce, hstore⟩ : once.1 = .answered _ ∧ once.2.store.Free _ :=
    perform_of_calm hfree (Surroundings.calm_of_no_faults fun _ _ => rfl)
  have hanswered : once.1 = .answered (.ok _) := honce.trans (congrArg _ hanswer)
  rw [hreplied, hanswered]
  exact ⟨rfl, rfl, hstore.trans htables.symm⟩

end

/-- **A row of edits is one edit.** Whatever was done before, with whatever surroundings, and
whatever faults strike: of edits of one post in a row those that are refused leave the store as it
was, and those that are accepted leave what one edit leaves in the place of the first of them, with
its reading of the clock and its identifiers and no fault: the edit whose title is the last title
that they give, and whose content is their last content. It replies what the last of them replies.

If the post has a version, an edit that no fault strikes is refused just if it is blank or has to
start a draft under an identifier that is in use. So without faults the one edit has the last texts
of all edits from the first accepted one on, and these are the last texts of the whole row unless
the post is without a draft and the first identifier that is handed out is in use. -/
theorem edits_merge (s s' : Surroundings) (sanitizer sanitizer' : Sanitizer) (ops : List Operation)
    (id : Uuid) (edits : List UpdatePost) :
    let w := (performAll s' sanitizer' ops World.initial).2
    let ran := performAll s sanitizer (edits.map (.updatePost id)) w
    let accepted := acceptedEdits edits ran.1
    let one := UpdatePost.merge sanitizer accepted
    (accepted ≠ [] → ∃ refused first rest, edits = refused ++ first :: rest ∧
      let before := performAll s sanitizer (refused.map (.updatePost id)) w
      let once := (Operation.updatePost id one).perform (.undisturbed s.clock s.ids) sanitizer
        before.2
      acceptedEdits refused before.1 = [] ∧ before.2.store = w.store ∧
      ((Operation.updatePost id first).perform s sanitizer before.2).1.reply?.isSome ∧
      once.1.reply? = (ran.1.filterMap Outcome.reply?).getLast? ∧
      once.1.reply?.isSome ∧ once.2.store = ran.2.store ∧
      (s.Calm w.trace ran.2.trace →
        one = .merge sanitizer (first :: rest) ∧
        (¬ w.store.tables.DraftCollides id (s.ids w.idsUsed) → one = .merge sanitizer edits))) ∧
    (∀ before r after, edits = before ++ r :: after →
      let v := (performAll s sanitizer (before.map (.updatePost id)) w).2
      let taken := (Operation.updatePost id r).perform s sanitizer v
      (taken.1.reply? = none → taken.2.store = v.store) ∧
      ((latestVersion? w.store.tables.versions.rows id).isSome → s.Calm v.trace taken.2.trace →
        (taken.1.reply? = none ↔
          r.Blank sanitizer ∨ v.store.tables.DraftCollides id (s.ids v.idsUsed)))) := by
  obtain ⟨t, b, hfree, hr⟩ := performAll_represents s' sanitizer' ops (w := World.initial) rfl
    represents_empty
  intro w ran accepted one
  have htables : w.store.tables = t := congrArg Store.tables hfree
  refine ⟨fun haccepted => ?_, fun before r after _ => ?_⟩
  · obtain ⟨refused, first, rest, hedits, hnone, hstill, hfirst, hlast, hall, hreplies⟩ :=
      performAll_first s sanitizer id edits hfree haccepted
    refine ⟨refused, first, rest, hedits, ?_⟩
    intro before once
    have hone := congrArg (UpdatePost.merge sanitizer) hall
    obtain ⟨hanswered, hsome, hstore⟩ := performAll_row s sanitizer hr rest hstill hfirst
    rw [← hreplies, ← hone] at hanswered
    rw [← hone] at hsome
    rw [← hlast, ← hone] at hstore
    refine ⟨hnone, hstill.trans hfree.symm, hfirst, hanswered, hsome, hstore, fun hcalm => ?_⟩
    obtain ⟨reply, hreply⟩ := Option.isSome_iff_exists.mp hfirst
    obtain ⟨hok, -⟩ := perform_of_ok hstill (Outcome.eq_of_reply? hreply)
    have hversion := isSome_latest_of_accepted hr hok
    refine ⟨?_, fun hfits => ?_⟩
    · have hstarted := ((effect_update_accepted_iff hr hversion).mp ⟨reply, hok⟩).2
      have hcalm' := hcalm.tail ⟨_, trace_performAll s sanitizer (refused.map (.updatePost id)) w⟩
      rw [hlast] at hcalm'
      exact hone.trans
        (merge_accepted_of_calm s sanitizer hr _ hstill hversion hstarted hcalm')
    · exact merge_accepted_of_calm s sanitizer hr _ hfree hversion (htables ▸ hfits) hcalm
  · intro v taken
    refine ⟨fun hrefused => ?_, fun hversion hcalm => ?_⟩
    · obtain ⟨t', hfree'⟩ := performAll_free s sanitizer (before.map (.updatePost id)) hfree
      exact (perform_of_fails s sanitizer _ hfree' (Outcome.fails_of_reply? hrefused)).trans
        hfree'.symm
    · obtain ⟨t', b', hfree', hr', hsome'⟩ :=
        performAll_edits_latest s sanitizer hr before hfree (htables ▸ hversion)
      have htables' : v.store.tables = t' := congrArg Store.tables hfree'
      rw [htables']
      exact perform_edit_refused_iff s sanitizer hr' hfree' hsome' hcalm

/-- Of four edits of a published post three are accepted: all but the blank one. What is blank in
them counts for nothing. -/
theorem edits_merge_of_three :
    let s : Surroundings := .serving [] ((List.range 3).map .ofNat)
    let w := (performAll s .identity [.createPost ⟨"title", "text"⟩, .publishPost (.ofNat 0)]
      World.initial).2
    let edits : List UpdatePost :=
      [⟨some "", none⟩, ⟨some "A", none⟩, ⟨some "", some "B"⟩, ⟨some "C", none⟩]
    let ran := performAll s .identity (edits.map (.updatePost (.ofNat 0))) w
    let blank := (Operation.updatePost (.ofNat 0) ⟨some "", none⟩).perform s .identity w
    acceptedEdits edits ran.1 ≠ [] ∧ s.Calm w.trace ran.2.trace ∧
    ¬ w.store.tables.DraftCollides (.ofNat 0) (s.ids w.idsUsed) ∧
    (latestVersion? w.store.tables.versions.rows (.ofNat 0)).isSome ∧
    blank.1.reply? = none ∧ blank.2.store = w.store ∧
    ∃ w₁ : World, w₁.store = w.store ∧
      ((Operation.updatePost (.ofNat 0) ⟨some "C", some "B"⟩).perform (.undisturbed s.clock s.ids)
        .identity w₁).2.store = ran.2.store := by
  intro s w edits ran blank
  have haccepted : acceptedEdits edits ran.1 ≠ [] := by decide +kernel
  have hcalm : s.Calm w.trace ran.2.trace := Surroundings.calm_of_no_faults fun _ _ => rfl
  have hfits : ¬ w.store.tables.DraftCollides (.ofNat 0) (s.ids w.idsUsed) := by decide +kernel
  have hversion : (latestVersion? w.store.tables.versions.rows (.ofNat 0)).isSome := by
    decide +kernel
  obtain ⟨hone, hall⟩ := edits_merge s s .identity .identity _ (.ofNat 0) edits
  obtain ⟨refused, _, _, _, _, hstill, _, _, _, hstore, hmerged⟩ := hone haccepted
  obtain ⟨hkept, hrefused⟩ := hall [] ⟨some "", none⟩ _ rfl
  have hblank := (hrefused hversion (Surroundings.calm_of_no_faults fun _ _ => rfl)).mpr
    (.inl (by decide +kernel))
  have htexts : UpdatePost.merge .identity edits = ⟨some "C", some "B"⟩ := by decide +kernel
  exact ⟨haccepted, hcalm, hfits, hversion, hblank, hkept hblank, _, hstill,
    htexts ▸ (hmerged hcalm).2 hfits ▸ hstore⟩

/-- An edit that is refused because the identifier for its draft is in use has a title all the same.
The title is not that of the draft that the next edit starts. -/
theorem edits_not_merged :
    let s : Surroundings := .serving [] ([1, 2, 2, 3].map .ofNat)
    let w := (performAll s .identity [.createPost ⟨"title", "text"⟩, .publishPost (.ofNat 1)]
      World.initial).2
    let edits : List UpdatePost := [⟨some "A", none⟩, ⟨none, some "B"⟩]
    let ran := performAll s .identity (edits.map (.updatePost (.ofNat 1))) w
    let before := (performAll s .identity [.updatePost (.ofNat 1) ⟨some "A", none⟩] w).2
    (latestVersion? w.store.tables.versions.rows (.ofNat 1)).isSome ∧
    (∀ m n, s.faults m n = none) ∧ acceptedEdits edits ran.1 = [⟨none, some "B"⟩] ∧
    UpdatePost.merge .identity edits = ⟨some "A", some "B"⟩ ∧
    ((Operation.updatePost (.ofNat 1) (.merge .identity edits)).perform s .identity
      before).2.store ≠ ran.2.store := by
  intro s w edits ran before
  refine ⟨by decide +kernel, fun _ _ => rfl, by decide +kernel, by decide +kernel, fun heq => ?_⟩
  have htitles := congrArg
    (fun store : Store => (store.tables.versions.get? (.ofNat 3)).map Version.title) heq
  revert htitles
  decide +kernel

end Weblog

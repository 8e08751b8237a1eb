import Weblog.Proofs.Store.Attach
import Weblog.Proofs.Transition

/-!
# What events say

The events about posts, versions, categories and links name rows. `Event.TrueOf` says when such an
event is true of an operation, by the rows before and after it alone.

* `TrueOf.unique`: at most one event is true of an operation.
* `Transition.reports_iff`: what an operation reports when it succeeds is just what is true of it.
-/

namespace Weblog

namespace Event

/-- The event reports a change of posts, versions, categories or links. -/
def isTransition : Event → Bool
  | draftAmended .. | draftStacked .. | versionPublished .. | draftDeleted .. | categoryRenamed ..
  | categoryCreated _ | categoriesAttached .. => true
  | _ => false

/-- The event is reported when the transaction is over; the other transitions are reported in it. -/
def followsCommit : Event → Bool
  | categoryCreated _ | categoriesAttached .. => true
  | _ => false

/-- What an event says is so of an operation, by its reply and the tables before and after it. -/
inductive TrueOf (t t' : Tables) : Operation → Reply → Event → Prop
  /-- The draft of a post is a draft still, under its identifier. -/
  | draftAmended {id : Uuid} {r : UpdatePost} {reply : Reply} {before after : Version}
    (hbefore : latestVersion? t.versions.rows id = some before) (hdraft : before.published = none)
    (hafter : t'.versions.get? after.id = some after) (hid : after.id = before.id)
    (hpost : after.post = id) (hstill : after.published = none)
    (hreply : reply = .post (.of after)) :
    TrueOf t t' (.updatePost id r) reply (.draftAmended id after.id after.number)
  /-- The latest version of a post was published, and the post shows a new draft. -/
  | draftStacked {id : Uuid} {r : UpdatePost} {reply : Reply} {before after : Version} {post : Post}
    (hbefore : latestVersion? t.versions.rows id = some before)
    (hpublished : before.published.isSome) (hnew : t.versions.get? after.id = none)
    (hafter : t'.versions.get? after.id = some after) (hpost : after.post = id)
    (hdraft : after.published = none) (hreply : reply = .post (.of after))
    (hrow : t'.posts.get? id = some post) (hcurrent : post.current = some after.id) :
    TrueOf t t' (.updatePost id r) reply (.draftStacked id after.id after.number)
  /-- The draft of a post is published, under its identifier, and the post shows it. -/
  | versionPublished {id : Uuid} {reply : Reply} {before after : Version} {post : Post}
    (hbefore : latestVersion? t.versions.rows id = some before) (hdraft : before.published = none)
    (hafter : t'.versions.get? after.id = some after) (hid : after.id = before.id)
    (hpost : after.post = id) (hpublished : after.published.isSome)
    (hrow : t'.posts.get? id = some post) (hcurrent : post.current = some after.id) :
    TrueOf t t' (.publishPost id) reply (.versionPublished id after.id after.number)
  /-- The draft of a post is gone, and the post shows what its row points to now. -/
  | draftDeleted {id : Uuid} {reply : Reply} {before : Version} {post : Post}
    {current : Option Uuid}
    (hbefore : latestVersion? t.versions.rows id = some before) (hdraft : before.published = none)
    (hgone : t'.versions.get? before.id = none) (hrow : t'.posts.get? id = some post)
    (hcurrent : post.current = current) :
    TrueOf t t' (.deleteDraft id) reply (.draftDeleted id before.id before.number current)
  /-- A category has another name. -/
  | categoryRenamed {id : Uuid} {r : NameCategory} {reply : Reply} {before after : Category}
    (hbefore : t.categories.get? id = some before)
    (hafter : t'.categories.get? id = some after) (hother : before.name ≠ after.name) :
    TrueOf t t' (.updateCategory id r) reply (.categoryRenamed id after.name)
  /-- The category that was answered is there. -/
  | categoryCreated {r : NameCategory} {reply : Reply} {c : Category}
    (hafter : t'.categories.get? c.id = some c) (hreply : reply = .category c) :
    TrueOf t t' (.createCategory r) reply (.categoryCreated c.id)
  /-- The version is in all the categories that were asked for, and was not in some of them. -/
  | categoriesAttached {r : AttachCategories} {reply : Reply} {inserted : Nat}
    (hversion : t'.versions.contains r.version = true)
    (hthere : ∀ id ∈ r.categories, t'.links.contains (r.version, id) = true)
    (hinserted : inserted = r.categories.countP fun id => !t.links.contains (r.version, id)) :
    TrueOf t t' (.attach r) reply
      (.categoriesAttached r.version r.categories.length inserted)

variable {t t' : Tables} {op : Operation} {reply : Reply} {e e' : Event}

theorem TrueOf.isMutation (h : TrueOf t t' op reply e) : op.isMutation = true := by
  cases h <;> rfl

/-- At most one event is true of an operation. -/
theorem TrueOf.unique (h : TrueOf t t' op reply e) (h' : TrueOf t t' op reply e') : e = e' := by
  cases h with
  | draftAmended hbefore hdraft hafter hid hpost hstill hreply =>
    cases h' with
    | draftAmended hbefore' hdraft' hafter' hid' hpost' hstill' hreply' =>
      subst hreply
      simp only [Reply.post.injEq, PostReply.of, PostReply.mk.injEq] at hreply'
      obtain ⟨-, hversion, hnumber, -⟩ := hreply'
      rw [hversion, hnumber]
    | draftStacked hbefore' hpublished =>
      cases hbefore.symm.trans hbefore'
      rw [hdraft] at hpublished
      cases hpublished
  | draftStacked hbefore hpublished hnew hafter hpost hdraft hreply hrow hcurrent =>
    cases h' with
    | draftAmended hbefore' hdraft' =>
      cases hbefore.symm.trans hbefore'
      rw [hdraft'] at hpublished
      cases hpublished
    | draftStacked hbefore' hpublished' hnew' hafter' hpost' hdraft' hreply' =>
      subst hreply
      simp only [Reply.post.injEq, PostReply.of, PostReply.mk.injEq] at hreply'
      obtain ⟨-, hversion, hnumber, -⟩ := hreply'
      rw [hversion, hnumber]
  | versionPublished hbefore hdraft hafter hid hpost hpublished hrow hcurrent =>
    cases h' with
    | versionPublished hbefore' hdraft' hafter' hid' =>
      cases hbefore.symm.trans hbefore'
      have hversion := hid.trans hid'.symm
      cases hafter.symm.trans (hversion ▸ hafter')
      rfl
  | draftDeleted hbefore hdraft hgone hrow hcurrent =>
    cases h' with
    | draftDeleted hbefore' hdraft' hgone' hrow' hcurrent' =>
      cases hbefore.symm.trans hbefore'
      cases hrow.symm.trans hrow'
      rw [← hcurrent, ← hcurrent']
  | categoryRenamed hbefore hafter hother =>
    cases h' with
    | categoryRenamed hbefore' hafter' hother' =>
      cases hafter.symm.trans hafter'
      rfl
  | categoryCreated hafter hreply =>
    cases h' with
    | categoryCreated hafter' hreply' =>
      cases hreply.symm.trans hreply'
      rfl
  | categoriesAttached hversion hthere hinserted =>
    cases h' with
    | categoriesAttached hversion' hthere' hinserted' => rw [hinserted, hinserted']

end Event

/-! ## Reports of transitions -/

section

variable {sanitizer : Sanitizer} {now : Instant} {fresh : Nat → Uuid} {t t' : Tables}
  {op : Operation} {reply : Reply} {events : List Event} {e : Event}

theorem AttachCategories.pair_links (r : AttachCategories) (now : Instant) :
    (r.links now).map Link.pair = r.categories.map fun id => (r.version, id) := by
  simp [links, Link.pair, Function.comp_def]

/-- What is reported when an operation succeeds is a transition and is true of the operation. -/
theorem Transition.true_of_mem (h : Transition sanitizer now fresh t op reply t' events)
    (hwf : t.WellFormed) (he : e ∈ events) : e.isTransition = true ∧ e.TrueOf t t' op reply := by
  cases h with
  | look hlooks => cases he
  | start hv hp hgiven hpost hunused => cases he
  | amend hlatest hdraft hv =>
    obtain rfl := List.mem_singleton.mp he
    subst hv
    exact ⟨rfl, .draftAmended hlatest hdraft (Table.get?_insert_self _ _ _) rfl
      (mem_of_latestVersion? hlatest).2 hdraft rfl⟩
  | @stack id r post latest v hpost hlatest hpublished hv hunused =>
    obtain rfl := List.mem_singleton.mp he
    obtain rfl : post.id = id := hwf.posts id post hpost
    subst hv
    exact ⟨rfl, .draftStacked hlatest hpublished hunused (Table.get?_insert_self _ _ _)
      (mem_of_latestVersion? hlatest).2 rfl rfl (Table.get?_insert_self _ _ _) rfl⟩
  | @publish id post latest v hpost hlatest hdraft hv =>
    obtain rfl := List.mem_singleton.mp he
    obtain rfl : post.id = id := hwf.posts id post hpost
    subst hv
    exact ⟨rfl, .versionPublished hlatest hdraft (Table.get?_insert_self _ _ _) rfl
      (mem_of_latestVersion? hlatest).2 rfl (Table.get?_insert_self _ _ _) rfl⟩
  | @drop id post latest current hpost hlatest hdraft hcurrent =>
    obtain rfl := List.mem_singleton.mp he
    obtain rfl : post.id = id := hwf.posts id post hpost
    refine ⟨rfl, .draftDeleted hlatest hdraft ?_ (Table.get?_insert_self _ _ _) rfl⟩
    exact (Table.get?_erase _ _ _).trans (if_pos rfl)
  | createCategory hc hgiven hfree =>
    obtain rfl := List.mem_singleton.mp he
    exact ⟨rfl, .categoryCreated (Table.get?_insert_self _ _ _) rfl⟩
  | rename hbefore hid hc hgiven hother hfree =>
    obtain rfl := List.mem_singleton.mp he
    subst hc hid
    exact ⟨rfl, .categoryRenamed hbefore (Table.get?_insert_self _ _ _) hother⟩
  | @attach r t' inserted hvalid hversion hattach =>
    obtain rfl := List.mem_singleton.mp he
    have hpairs : ((r.links now).map Link.pair).Nodup := by
      rw [r.pair_links]
      exact List.Pairwise.map _ (fun _ _ hne heq => hne (Prod.mk.inj heq).2)
        (AttachCategories.nodup_of_valid hvalid)
    obtain ⟨hcount, hthere⟩ := Tables.of_attach hattach hpairs
    have hversions := (t.attach_spares (r.links now)).2
    rw [hattach] at hversions
    refine ⟨rfl, .categoriesAttached (hversions ▸ hversion) (fun id hid => ?_) ?_⟩
    · exact hthere ⟨r.version, id, now⟩ (List.mem_map_of_mem hid)
    · rw [hcount, AttachCategories.links, List.countP_map]
      rfl

/-- When an operation succeeds, what it reports is just what is true of it. -/
theorem Transition.reports_iff (h : Transition sanitizer now fresh t op reply t' events)
    (hwf : t.WellFormed) : e.TrueOf t t' op reply ↔ e ∈ events := by
  refine ⟨fun htrue => ?_, fun he => (h.true_of_mem hwf he).2⟩
  have hone : ∀ e', events = [e'] → e ∈ events := by
    rintro e' rfl
    have htrue' := (h.true_of_mem hwf List.mem_cons_self).2
    exact htrue.unique htrue' ▸ List.mem_cons_self
  cases h with
  | look hlooks =>
    rw [htrue.isMutation] at hlooks
    cases hlooks
  | start => cases htrue
  | amend | stack | publish | drop | createCategory | rename | attach => exact hone _ rfl

end

end Weblog

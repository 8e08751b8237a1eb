import Weblog.Proofs.Markup
import Weblog.Proofs.Transition

/-!
# Where the stored texts come from

Every title, content and name in the tables was given by a request, was cleaned once on its way, and
is not empty.

* `Tables.Texts`: a condition on every stored text, by its field. `effect_texts` shows that each
  transition keeps it, because what it writes is cleaned or was stored before.
* `stored_texts_cleaned`: the law of whole runs, what an edit carries over, and what follows for the
  sanitizer that escapes markup.
-/

namespace Weblog

/-! ## Given texts -/

namespace Operation

/-- The title that a request gives. -/
def title? : Operation → Option String
  | createPost r => some r.title
  | updatePost _ r => r.title
  | _ => none

/-- The content that a request gives. -/
def content? : Operation → Option String
  | createPost r => some r.content
  | updatePost _ r => r.content
  | _ => none

/-- The name of a category that a request gives. -/
def name? : Operation → Option String
  | createCategory r | updateCategory _ r => some r.name
  | _ => none

end Operation

/-- A text is not empty, and cleaning what one of some requests gave in its field made it. -/
def Cleaned (sanitizer : Sanitizer) (given : Operation → Option String) (ops : List Operation)
    (text : String) : Prop :=
  text ≠ "" ∧ ∃ op ∈ ops, ∃ raw, given op = some raw ∧ text = sanitizer raw

/-- What an edit makes of a text: the text that it gives, cleaned, unless it gives none or a blank
one; then the text stays as it was. -/
def Carried (sanitizer : Sanitizer) (given : Option String) (before after : String) : Prop :=
  match given with
  | none => after = before
  | some raw => after = if sanitizer raw = "" then before else sanitizer raw

section

variable {sanitizer : Sanitizer} {given : Operation → Option String} {ops : List Operation}
  {op : Operation} {before : String}

theorem Cleaned.of_given {raw : String} (hop : op ∈ ops) (hgiven : given op = some raw)
    (hne : sanitizer raw ≠ "") : Cleaned sanitizer given ops (sanitizer raw) :=
  ⟨hne, op, hop, raw, hgiven, rfl⟩

theorem carried_getD (sanitizer : Sanitizer) (given : Option String) (before : String) :
    Carried sanitizer given before ((cleanOption sanitizer given).getD before) := by
  cases given with
  | none => rfl
  | some raw =>
    by_cases hblank : sanitizer raw = "" <;>
      simp [Carried, cleanOption, Option.filter, hblank]

/-- An edit leaves a text that is cleaned, if the text before was. -/
theorem Cleaned.carried {after : String} (h : Cleaned sanitizer given ops before) (hop : op ∈ ops)
    (hcarried : Carried sanitizer (given op) before after) : Cleaned sanitizer given ops after := by
  cases hgiven : given op with
  | none =>
    rw [hgiven] at hcarried
    exact hcarried ▸ h
  | some raw =>
    simp only [hgiven, Carried] at hcarried
    split at hcarried
    · exact hcarried ▸ h
    · rename_i hne
      exact hcarried ▸ .of_given hop hgiven hne

end

/-! ## Stored texts -/

/-- The texts in the tables meet a condition, one for each field. -/
structure Tables.Texts (title content name : String → Prop) (t : Tables) : Prop where
  titles : ∀ id v, t.versions.get? id = some v → title v.title
  contents : ∀ id v, t.versions.get? id = some v → content v.content
  names : ∀ id c, t.categories.get? id = some c → name c.name

namespace Tables.Texts

variable {title content name : String → Prop} {t : Tables}

theorem empty : Tables.empty.Texts title content name where
  titles := by intro id v hget; cases hget
  contents := by intro id v hget; cases hget
  names := by intro id c hget; cases hget

variable (h : t.Texts title content name)

include h

theorem withPost (p : Post) : (t.withPost p).Texts title content name :=
  { h with }

theorem withVersion {v : Version} (htitle : title v.title) (hcontent : content v.content) :
    (t.withVersion v).Texts title content name := by
  refine { h with titles := fun id w hget => ?_, contents := fun id w hget => ?_ }
  · rcases Table.get?_insert_cases hget with ⟨-, rfl⟩ | ⟨-, hget⟩
    · exact htitle
    · exact h.titles id w hget
  · rcases Table.get?_insert_cases hget with ⟨-, rfl⟩ | ⟨-, hget⟩
    · exact hcontent
    · exact h.contents id w hget

theorem withoutVersion (id : Uuid) : (t.withoutVersion id).Texts title content name :=
  { h with
    titles := fun id w hget => h.titles id w (Table.get?_of_erase hget)
    contents := fun id w hget => h.contents id w (Table.get?_of_erase hget) }

theorem withCategory {c : Category} (hname : name c.name) :
    (t.withCategory c).Texts title content name := by
  refine { h with names := fun id d hget => ?_ }
  rcases Table.get?_insert_cases hget with ⟨-, rfl⟩ | ⟨-, hget⟩
  · exact hname
  · exact h.names id d hget

theorem attach (links : List Link) : (t.attach links).2.Texts title content name := by
  induction links generalizing t with
  | nil => exact h
  | cons l rest ih =>
    rw [Tables.attach]
    split
    · exact h
    · split
      · exact h
      · split
        · exact ih h
        · exact ih { h with }

/-- The latest version of a post is a stored one. -/
theorem latest {post : Uuid} {v : Version}
    (hlatest : latestVersion? t.versions.rows post = some v) :
    title v.title ∧ content v.content := by
  obtain ⟨id, hget⟩ := Table.mem_rows.mp (mem_of_latestVersion? hlatest).1
  exact ⟨h.titles id v hget, h.contents id v hget⟩

end Tables.Texts

/-! ## Runs -/

section

variable {sanitizer : Sanitizer} {ops : List Operation} {now : Instant} {fresh : Nat → Uuid}
  {t t' : Tables}

/-- The stored texts are those that some requests gave, cleaned. -/
abbrev Tables.CleanedTexts (sanitizer : Sanitizer) (ops : List Operation) : Tables → Prop :=
  Tables.Texts (Cleaned sanitizer Operation.title? ops) (Cleaned sanitizer Operation.content? ops)
    (Cleaned sanitizer Operation.name? ops)

theorem Transition.texts {op : Operation} {reply : Reply} {events : List Event}
    (hstep : Transition sanitizer now fresh t op reply t' events) (hop : op ∈ ops)
    (h : t.CleanedTexts sanitizer ops) : t'.CleanedTexts sanitizer ops := by
  cases hstep with
  | look hlooks => exact h
  | start hv hp hgiven hpost hunused =>
    subst hv
    exact (h.withVersion (.of_given hop rfl hgiven.1) (.of_given hop rfl hgiven.2)).withPost _
  | amend hlatest hdraft hv =>
    subst hv
    obtain ⟨htitle, hcontent⟩ := h.latest hlatest
    exact h.withVersion (htitle.carried hop (carried_getD _ _ _))
      (hcontent.carried hop (carried_getD _ _ _))
  | stack hpost hlatest hpublished hv hunused =>
    subst hv
    obtain ⟨htitle, hcontent⟩ := h.latest hlatest
    exact (h.withVersion (htitle.carried hop (carried_getD _ _ _))
      (hcontent.carried hop (carried_getD _ _ _))).withPost _
  | publish hpost hlatest hdraft hv =>
    subst hv
    obtain ⟨htitle, hcontent⟩ := h.latest hlatest
    refine (h.withVersion ?_ ?_).withPost _
    · exact htitle
    · exact hcontent
  | drop hpost hlatest hdraft hcurrent => exact (h.withoutVersion _).withPost _
  | createCategory hc hgiven hfree =>
    subst hc
    exact h.withCategory (.of_given hop rfl hgiven)
  | rename hbefore hid hc hgiven hother hfree =>
    subst hc
    exact h.withCategory (.of_given hop rfl hgiven)
  | attach hvalid hversion hattach =>
    have htables : (t.attach _).2 = t' := congrArg Prod.snd hattach
    exact htables ▸ h.attach _

variable {w : World} (hwf : t.WellFormed)

include hwf

theorem effect_texts {op : Operation} (hop : op ∈ ops) (h : t.CleanedTexts sanitizer ops) :
    (op.effect sanitizer now fresh t).tables.CleanedTexts sanitizer ops := by
  cases hanswer : (op.effect sanitizer now fresh t).answer with
  | error e => exact (Operation.effect_tables_of_error hanswer).symm ▸ h
  | ok reply => exact (effect_transition hwf hanswer).texts hop h

omit hwf in
/-- After every run from no rows at all the tables are well-formed and their texts are cleaned. -/
theorem performAll_texts (s : Surroundings) (sanitizer : Sanitizer) (ops : List Operation) :
    ∃ t, (performAll s sanitizer ops World.initial).2.store.Free t ∧ t.WellFormed ∧
      t.CleanedTexts sanitizer ops :=
  performAll_stays (P := fun t => t.WellFormed ∧ t.CleanedTexts sanitizer ops) s
    (fun op hop now fresh _ h =>
      ⟨effect_wellFormed sanitizer now fresh op h.1, effect_texts h.1 hop h.2⟩)
    (w := World.initial) rfl ⟨.empty, .empty⟩

/-- An edit that succeeds leaves a version that is stored and carries the texts that the edit does
not give from the latest version before it. -/
theorem perform_updatePost_carries (s : Surroundings) {id : Uuid} {r : UpdatePost} {reply : Reply}
    (hfree : w.store.Free t)
    (hok : (Operation.perform s sanitizer (.updatePost id r) w).1 = .answered (.ok reply)) :
    ∃ before after, latestVersion? t.versions.rows id = some before ∧ reply = .post (.of after) ∧
      (Operation.perform s sanitizer (.updatePost id r) w).2.store.tables.versions.get? after.id =
        some after ∧
      Carried sanitizer r.title before.title after.title ∧
      Carried sanitizer r.content before.content after.content := by
  cases perform_cases s sanitizer (.updatePost id r) hfree with
  | struck _ hfails _ => exact absurd hok (hfails reply)
  | done _ hanswer hstore _ _ _ =>
    have hreply := Outcome.answered.inj (hanswer.symm.trans hok)
    have hstep := effect_transition hwf hreply
    rw [hstore]
    generalize Operation.effect sanitizer (.updatePost id r) _ _ t = effect at hstep
    obtain ⟨answer, tables, clockReads, taken, events⟩ := effect
    cases hstep with
    | look hlooks => cases hlooks
    | amend hlatest hdraft hv =>
      refine ⟨_, _, hlatest, rfl, Table.get?_insert_self _ _ _, ?_, ?_⟩
      · exact hv ▸ carried_getD _ _ _
      · exact hv ▸ carried_getD _ _ _
    | stack hpost hlatest hpublished hv hunused =>
      refine ⟨_, _, hlatest, rfl, Table.get?_insert_self _ _ _, ?_, ?_⟩
      · exact hv ▸ carried_getD _ _ _
      · exact hv ▸ carried_getD _ _ _

end

/-- **Stored texts are cleaned and not blank.** After any run, whatever sanitizer is in use and
whatever faults strike: every stored title, content and name is not empty and was given by a request
of the run in that field and cleaned. An edit that succeeds carries the texts that it leaves out or
leaves blank over from the latest version as they stand there. With the sanitizer that escapes
markup no stored text holds a character that opens or closes markup. -/
theorem stored_texts_cleaned (s : Surroundings) (sanitizer : Sanitizer) (ops : List Operation) :
    let w := (performAll s sanitizer ops World.initial).2
    let t := w.store.tables
    (∀ id v, t.versions.get? id = some v →
      Cleaned sanitizer Operation.title? ops v.title ∧
        Cleaned sanitizer Operation.content? ops v.content) ∧
    (∀ id c, t.categories.get? id = some c → Cleaned sanitizer Operation.name? ops c.name) ∧
    (∀ id r reply,
      let ran := Operation.perform s sanitizer (.updatePost id r) w
      ran.1 = .answered (.ok reply) →
      ∃ before after, latestVersion? t.versions.rows id = some before ∧ reply = .post (.of after) ∧
        ran.2.store.tables.versions.get? after.id = some after ∧
        Carried sanitizer r.title before.title after.title ∧
        Carried sanitizer r.content before.content after.content) ∧
    (sanitizer = Sanitizer.html →
      (∀ id v, t.versions.get? id = some v → Text.Inert v.title ∧ Text.Inert v.content) ∧
      ∀ id c, t.categories.get? id = some c → Text.Inert c.name) := by
  obtain ⟨t, hfree, hwf, htexts⟩ := performAll_texts s sanitizer ops
  intro w tables
  have htables : tables = t := congrArg Store.tables hfree
  rw [htables]
  have hinert : ∀ {given text}, sanitizer = Sanitizer.html → Cleaned sanitizer given ops text →
      Text.Inert text := by
    rintro given text rfl ⟨-, op, -, raw, -, rfl⟩
    exact Sanitizer.inert_html raw
  refine ⟨fun id v hget => ⟨htexts.titles id v hget, htexts.contents id v hget⟩, htexts.names,
    fun id r reply hok => perform_updatePost_carries hwf s hfree hok, fun hhtml => ⟨?_, ?_⟩⟩
  · intro id v hget
    exact ⟨hinert hhtml (htexts.titles id v hget), hinert hhtml (htexts.contents id v hget)⟩
  · intro id c hget
    exact hinert hhtml (htexts.names id c hget)

end Weblog

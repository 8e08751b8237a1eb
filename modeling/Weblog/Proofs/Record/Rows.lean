import Weblog.Proofs.Record.Schema

/-!
# Rows survive their text

Every row is read back from the text it is written as, and so is a status from its name. So two
rows have the same text only if they are the same row (`rows_survive`): rows of one table since
both are what is read back from that text, rows of different tables since their members have
different names.
-/

namespace Weblog

open Record (Values minInteger maxInteger)

/-- The names of the members of an object, in their order. -/
def Json.names : Json → List String
  | .object members => members.map (·.1)
  | _ => []

namespace Record

variable {α : Type} [Record α] {a : α} {j : Json}

/-- A value is written as the object that has its parts under the names of their fields. -/
structure Written (a : α) (j : Json) : Prop where
  names : ((schema α).fields.map (·.name)).Nodup
  members : ∃ values, Values.Fit (schema α).fields values ∧ ofValues values = a ∧
    j = .object (Values.members (schema α).fields values)

theorem Written.ofText_toText (h : Written a j) : ofText j.toText = .ok a := by
  obtain ⟨hnames, values, hfit, hvalues, rfl⟩ := h
  rw [ofText, Schema.ofText_members _ hnames hfit]
  exact congrArg Except.ok hvalues

theorem Written.exact (h : Written a j) : j.Exact := by
  obtain ⟨-, values, hfit, -, rfl⟩ := h
  exact Values.exact_members hfit

theorem Written.inj {b : α} {k : Json} (ha : Written a j) (hb : Written b k) (h : j = k) :
    a = b := by
  subst h
  exact Except.ok.inj (ha.ofText_toText.symm.trans hb.ofText_toText)

end Record

/-! ## The tables -/

/-- The number of a version fits 64 bits with sign. -/
def Version.Numbered (v : Version) : Prop :=
  minInteger ≤ v.number ∧ v.number ≤ maxInteger

instance (v : Version) : Decidable v.Numbered :=
  inferInstanceAs (Decidable (_ ∧ _))

theorem Post.written (p : Post) : Record.Written p p.toJson := by
  refine ⟨by decide, (p.id, p.current, p.created, p.updated, ()), ?_, rfl, rfl⟩
  exact ⟨trivial, fun _ _ => trivial, trivial, trivial, trivial⟩

theorem Version.written {v : Version} (h : v.Numbered) : Record.Written v v.toJson := by
  refine ⟨by decide,
    (v.id, v.post, v.number, v.title, v.content, v.published, v.created, ()), ?_, rfl, rfl⟩
  exact ⟨trivial, trivial, h, trivial, trivial, fun _ _ => trivial, trivial, trivial⟩

theorem Category.written (c : Category) : Record.Written c c.toJson := by
  refine ⟨by decide, (c.id, c.name, c.created, c.updated, ()), ?_, rfl, rfl⟩
  exact ⟨trivial, trivial, trivial, trivial, trivial⟩

theorem Link.written (l : Link) : Record.Written l l.toJson := by
  refine ⟨by decide, (l.version, l.category, l.created, ()), ?_, rfl, rfl⟩
  exact ⟨trivial, trivial, trivial, trivial⟩

theorem Status.ofText_toJson (s : Status) : Status.ofText s.toJson.toText = .ok s := by
  have hexact : s.toJson.Exact := trivial
  have hkey : Status.keyProblem? s.toJson.toText.toList = none := by
    rw [Json.toText, String.toList_ofList]
    cases s <;> rfl
  rw [Status.ofText, hkey, Json.toText, String.toList_ofList, Json.Document.ofChars_toChars hexact]
  cases s <;> rfl

/-! ## Rows of any table -/

/-- A row of one of the tables, or the status of a version. -/
inductive Row where
  | post (p : Post)
  | version (v : Version)
  | category (c : Category)
  | link (l : Link)
  | status (s : Status)
  deriving DecidableEq

namespace Row

def toJson : Row → Json
  | .post p => p.toJson
  | .version v => v.toJson
  | .category c => c.toJson
  | .link l => l.toJson
  | .status s => s.toJson

/-- Whatever number a row has fits 64 bits with sign. -/
def Numbered : Row → Prop
  | .version v => v.Numbered
  | .post _ | .category _ | .link _ | .status _ => True

theorem exact_toJson {row : Row} (h : row.Numbered) : row.toJson.Exact := by
  cases row with
  | post p => exact p.written.exact
  | version v => exact (Version.written h).exact
  | category c => exact c.written.exact
  | link l => exact l.written.exact
  | status s => exact trivial

/-- What a row is a row of. -/
inductive Kind where
  | post
  | version
  | category
  | link
  | status
  deriving DecidableEq

def kind : Row → Kind
  | .post _ => .post
  | .version _ => .version
  | .category _ => .category
  | .link _ => .link
  | .status _ => .status

/-- The names of the members of the rows of one kind. -/
def Kind.names : Kind → List String
  | .post => (Record.schema Post).fields.map (·.name)
  | .version => (Record.schema Version).fields.map (·.name)
  | .category => (Record.schema Category).fields.map (·.name)
  | .link => (Record.schema Link).fields.map (·.name)
  | .status => []

theorem Kind.names_inj {k l : Kind} (h : k.names = l.names) : k = l := by
  cases k <;> cases l <;> first | rfl | exact absurd h (by decide)

theorem kind_eq_of_toJson_eq {a b : Row} (h : a.toJson = b.toJson) : a.kind = b.kind := by
  have hnames (row : Row) : row.toJson.names = row.kind.names := by cases row <;> rfl
  exact Kind.names_inj (by rw [← hnames, h, hnames])

theorem toJson_inj {a b : Row} (ha : a.Numbered) (hb : b.Numbered) (h : a.toJson = b.toJson) :
    a = b := by
  have hkind := kind_eq_of_toJson_eq h
  cases a with
  | post p =>
    cases b with
    | post q => exact congrArg post (p.written.inj q.written h)
    | _ => cases hkind
  | version v =>
    cases b with
    | version w => exact congrArg version ((Version.written ha).inj (Version.written hb) h)
    | _ => cases hkind
  | category c =>
    cases b with
    | category d => exact congrArg category (c.written.inj d.written h)
    | _ => cases hkind
  | link l =>
    cases b with
    | link k => exact congrArg link (l.written.inj k.written h)
    | _ => cases hkind
  | status s =>
    cases b with
    | status t =>
      change s.toJson = t.toJson at h
      have hread := s.ofText_toJson
      rw [h, t.ofText_toJson] at hread
      exact congrArg status (Except.ok.inj hread.symm)
    | _ => cases hkind

end Row

/-- Rows survive their text: each is read back from the text it is written as, so that different
rows, also of different tables, have different texts. The numbers of versions are those that fit 64
bits with sign; identifiers, texts and instants are arbitrary. -/
theorem rows_survive :
    (∀ p : Post, Record.ofText p.toJson.toText = .ok p) ∧
    (∀ v : Version, v.Numbered → Record.ofText v.toJson.toText = .ok v) ∧
    (∀ c : Category, Record.ofText c.toJson.toText = .ok c) ∧
    (∀ l : Link, Record.ofText l.toJson.toText = .ok l) ∧
    (∀ s : Status, Status.ofText s.toJson.toText = .ok s) ∧
    (∀ a b : Row, a.Numbered → b.Numbered → a ≠ b → a.toJson.toText ≠ b.toJson.toText) := by
  refine ⟨fun p => p.written.ofText_toText, fun v hv => (Version.written hv).ofText_toText,
    fun c => c.written.ofText_toText, fun l => l.written.ofText_toText,
    fun s => s.ofText_toJson, ?_⟩
  intro a b ha hb hne htext
  exact hne (Row.toJson_inj ha hb
    (Json.eq_of_toText_eq (Row.exact_toJson ha) (Row.exact_toJson hb) htext))

/-- A version with the least number there is, quotes and control characters in its title, letters
beyond the first plane in its content, published in the very last instant, a leap second, and made
long before the year 0. -/
def Version.outlandish : Version where
  id := ⟨0, by decide⟩
  post := ⟨(1 <<< 128) - 1, by decide⟩
  number := minInteger
  title := "\"\\\n\x00"
  content := "𝔏ean"
  published := some ⟨Instant.lastSecond, 1999999999, by decide⟩
  created := ⟨Instant.firstSecond, 1, by decide⟩

theorem outlandish_survives :
    Version.outlandish.Numbered ∧
    Record.ofText Version.outlandish.toJson.toText = .ok Version.outlandish ∧
    Version.outlandish.toJson.toText ≠
      { Version.outlandish with published := none : Version }.toJson.toText := by
  have hnumber : Version.outlandish.Numbered := by decide
  have hdraft : ({ Version.outlandish with published := none } : Version).Numbered := by decide
  refine ⟨hnumber, rows_survive.2.1 _ hnumber, ?_⟩
  exact rows_survive.2.2.2.2.2 (.version Version.outlandish) (.version _) hnumber hdraft (by decide)

end Weblog

import Weblog.Proofs.Json.Reading
import Weblog.Proofs.Time.Text
import Weblog.Proofs.Uuid
import Weblog.Record.Rows

/-!
# Written records

A record that is written as an object with its fields in their order is read back with the same
values (`Schema.ofText_members`). The fields need different names, and integers have to fit 64 bits
with sign.

Reading fills one slot after another. Members of other names pass a slot by (`readMembers_skip`),
so that the induction over the fields can take the first field and its member away together.
-/

namespace Weblog.Record

open Json

/-! ## Single values -/

/-- A value of a kind as JSON. -/
def Scalar.write : (k : Scalar) → k.Value → Json
  | .text, s => .string s
  | .uuid, id => id.toJson
  | .instant, t => t.toJson
  | .integer, n => .integer n

/-- An integer fits 64 bits with sign; other values need not fit anything. -/
def Scalar.Fits : (k : Scalar) → k.Value → Prop
  | .integer, n => minInteger ≤ n ∧ n ≤ maxInteger
  | .text, _ | .uuid, _ | .instant, _ => True

theorem Scalar.read_write {k : Scalar} {v : k.Value} (h : k.Fits v) :
    k.read (k.write v).toReading = .ok v := by
  cases k with
  | text => rfl
  | uuid =>
    simp only [write, Uuid.toJson, toReading, read]
    rw [Uuid.ofText?_toText]
  | instant =>
    simp only [write, Instant.toJson, toReading, read]
    rw [Instant.ofText?_toText]
  | integer => exact if_pos h

theorem exact_integer {n : Int} (hmin : minInteger ≤ n) (hmax : n ≤ maxInteger) :
    (Json.integer n).Exact := by
  unfold minInteger at hmin
  unfold maxInteger at hmax
  change -9223372036854775808 ≤ n ∧ n ≤ 18446744073709551615
  omega

theorem Scalar.exact_write {k : Scalar} {v : k.Value} (h : k.Fits v) : (k.write v).Exact := by
  cases k with
  | text | uuid | instant => exact trivial
  | integer => exact exact_integer h.1 h.2

theorem Scalar.toReading_write_ne_null {k : Scalar} (v : k.Value) :
    (k.write v).toReading ≠ .null := by
  cases k <;> simp [write, Uuid.toJson, Instant.toJson, Json.integer, toReading]

/-! ## Fields -/

/-- The value of a field as JSON. -/
def Kind.write : (k : Kind) → k.Value → Json
  | .one k, v => k.write v
  | .optional k, v => .ofOption k.write v
  | .many k, vs => .array (vs.map k.write)

/-- The value of a field fits if all integers in it do. -/
def Kind.Fits : (k : Kind) → k.Value → Prop
  | .one k, v => k.Fits v
  | .optional k, v => ∀ a, v = some a → k.Fits a
  | .many k, vs => ∀ a ∈ vs, k.Fits a

theorem mapM_read_write {k : Scalar} {vs : List k.Value} (h : ∀ a ∈ vs, k.Fits a) :
    (itemsToReading (vs.map k.write)).mapM k.read = .ok vs := by
  induction vs with
  | nil => rfl
  | cons v vs ih =>
    rw [List.forall_mem_cons] at h
    rw [List.map_cons, itemsToReading, List.mapM_cons, Scalar.read_write h.1, ih h.2]
    rfl

theorem itemsExact_map_write {k : Scalar} {vs : List k.Value} (h : ∀ a ∈ vs, k.Fits a) :
    ItemsExact (vs.map k.write) := by
  induction vs with
  | nil => exact trivial
  | cons v vs ih =>
    rw [List.forall_mem_cons] at h
    exact ⟨Scalar.exact_write h.1, ih h.2⟩

theorem Kind.read_write {k : Kind} {v : k.Value} (h : k.Fits v) :
    k.read (k.write v).toReading = .ok v := by
  cases k with
  | one k => exact Scalar.read_write h
  | optional k =>
    cases v with
    | none => rfl
    | some a =>
      change Kind.read (.optional k) (k.write a).toReading = _
      have hread := Scalar.read_write (h a rfl)
      have hnull := Scalar.toReading_write_ne_null a
      generalize (k.write a).toReading = r at hread hnull
      rw [Kind.read, hread]
      · rfl
      · exact hnull
  | many k => exact mapM_read_write h

theorem Kind.exact_write {k : Kind} {v : k.Value} (h : k.Fits v) : (k.write v).Exact := by
  cases k with
  | one k => exact Scalar.exact_write h
  | optional k =>
    cases v with
    | none => exact trivial
    | some a => exact Scalar.exact_write (h a rfl)
  | many k => exact itemsExact_map_write h

/-! ## Records -/

/-- The members of the object that a record is written as. -/
def Values.members : (fs : List Field) → Values fs → List (String × Json)
  | [], _ => []
  | f :: fs, (value, values) => (f.name, f.kind.write value) :: Values.members fs values

/-- All integers in a record fit. -/
def Values.Fit : (fs : List Field) → Values fs → Prop
  | [], _ => True
  | f :: fs, (value, values) => f.kind.Fits value ∧ Values.Fit fs values

/-- Slots of which every one has its value. -/
def Slots.full : (fs : List Field) → Values fs → Slots fs
  | [], _ => ()
  | _ :: fs, (value, values) => (some value, Slots.full fs values)

theorem Slots.close_full (fs : List Field) (values : Values fs) :
    Slots.close fs (Slots.full fs values) = .ok values := by
  induction fs with
  | nil => rfl
  | cons f fs ih =>
    obtain ⟨value, values⟩ := values
    simp only [Slots.full, Slots.close, Option.some_or, ih]
    rfl

theorem Values.exact_members {fs : List Field} {values : Values fs} (h : Values.Fit fs values) :
    MembersExact (Values.members fs values) := by
  induction fs with
  | nil => exact trivial
  | cons f fs ih => exact ⟨Kind.exact_write h.1, ih h.2⟩

theorem Values.names_members (fs : List Field) (values : Values fs) :
    (Values.members fs values).map (·.1) = fs.map (·.name) := by
  induction fs with
  | nil => rfl
  | cons f fs ih => exact congrArg (f.name :: ·) (ih values.2)

namespace Schema

/-- Members of other names than that of a field leave its slot as it is. -/
theorem readMembers_skip {f : Field} {fs : List Field} (value : Option f.kind.Value)
    {members : List (String × Json)} (h : ∀ m ∈ members, f.name ≠ m.1) (slots : Slots fs) :
    readMembers (f :: fs) (value, slots) (membersToReading members) =
      (readMembers fs slots (membersToReading members)).map fun slots => (value, slots) := by
  induction members generalizing slots with
  | nil => rfl
  | cons m rest ih =>
    obtain ⟨name, j⟩ := m
    rw [List.forall_mem_cons] at h
    have hpass : Slots.fill (f :: fs) (value, slots) name j.toReading =
        (Slots.fill fs slots name j.toReading).map fun slots => (value, slots) := if_neg h.1
    rw [membersToReading, readMembers, readMembers, hpass]
    cases Slots.fill fs slots name j.toReading with
    | error problem => rfl
    | ok slots => exact ih h.2 slots

/-- Every slot is filled from the member of its name. -/
theorem readMembers_members {fs : List Field} (hnames : (fs.map (·.name)).Nodup)
    {values : Values fs} (hfit : Values.Fit fs values) :
    readMembers fs (Slots.empty fs) (membersToReading (Values.members fs values)) =
      .ok (Slots.full fs values) := by
  induction fs with
  | nil => rfl
  | cons f fs ih =>
    obtain ⟨value, values⟩ := values
    rw [List.map_cons, List.nodup_cons] at hnames
    have hother : ∀ m ∈ Values.members fs values, f.name ≠ m.1 := by
      intro m hm hname
      refine hnames.1 ?_
      rw [← Values.names_members fs values, hname]
      exact List.mem_map_of_mem hm
    have hfill : Slots.fill (f :: fs) (none, Slots.empty fs) f.name
        (f.kind.write value).toReading = .ok (some value, Slots.empty fs) := by
      refine (if_pos rfl).trans ?_
      rw [Kind.read_write hfit.1]
      rfl
    rw [Values.members, membersToReading, readMembers, Slots.empty, hfill]
    simp only [readMembers_skip (some value) hother, ih hnames.2 hfit.2]
    rfl

/-- A record is read back from its text. -/
theorem ofText_members (s : Schema) (hnames : (s.fields.map (·.name)).Nodup)
    {values : Values s.fields} (hfit : Values.Fit s.fields values) :
    s.ofText (Json.object (Values.members s.fields values)).toText = .ok values := by
  have hexact : (Json.object (Values.members s.fields values)).Exact := Values.exact_members hfit
  rw [ofText, toText, String.toList_ofList, Document.ofChars_toChars hexact, ofDocument]
  simp only [toReading, ofReading, readMembers_members hnames hfit, Slots.close_full, reduceCtorEq,
    decide_false, Bool.false_eq_true, if_false]

end Schema

end Weblog.Record

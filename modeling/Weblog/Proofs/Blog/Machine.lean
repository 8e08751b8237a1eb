import Weblog.Proofs.Table
import Weblog.Service.Operation

/-!
# A machine of drafts and publications

The machine keeps for every post the list of its publications and at most one draft. It has no rows,
no pointer to a current version and no stored numbers: a publication is numbered by its place, and
the draft comes after all publications.

* `History.versions`: the versions that a history stands for.
* `Blog.step`: what the machine answers to an operation, and what becomes of it. To operations on
  categories it answers nothing, and they leave it as it is.
-/

namespace Weblog

/-- A text that was published. -/
structure Publication where
  version : Uuid
  title : String
  content : String
  created : Instant
  published : Instant

/-- A text that can still change. -/
structure Draft where
  version : Uuid
  title : String
  content : String
  created : Instant

/-- A post: what was published of it, and its draft. -/
structure History where
  created : Instant
  updated : Instant
  publications : List Publication
  draft : Option Draft

abbrev Blog := Table Uuid History

/-! ## Versions -/

/-- A publication as a version of a post. -/
def Publication.toVersion (p : Publication) (post : Uuid) (number : Int) : Version :=
  { id := p.version, post, number, title := p.title, content := p.content
    published := some p.published, created := p.created }

def Draft.toVersion (d : Draft) (post : Uuid) (number : Int) : Version :=
  { id := d.version, post, number, title := d.title, content := d.content
    published := none, created := d.created }

/-- A draft when it is published. -/
def Draft.publish (d : Draft) (now : Instant) : Publication :=
  { version := d.version, title := d.title, content := d.content, created := d.created
    published := now }

namespace History

variable (h : History) (id : Uuid)

/-- The number of the last publication. -/
def last : Int :=
  h.publications.length

/-- The published versions, numbered from one. -/
def published : List Version :=
  h.publications.mapIdx fun i p => p.toVersion id (i + 1)

/-- The draft, which comes after all publications. -/
def draftVersion? : Option Version :=
  h.draft.map (·.toVersion id (h.last + 1))

def versions : List Version :=
  h.published id ++ (h.draftVersion? id).toList

def lastPublished? : Option Version :=
  h.publications.getLast?.map (·.toVersion id h.last)

/-- The version that is shown: the draft, or else the last publication. -/
def shown? : Option Version :=
  (h.draftVersion? id).or (h.lastPublished? id)

/-- The post as a row. -/
def post : Post :=
  { id, current := (h.shown? id).map (·.id), created := h.created, updated := h.updated }

end History

namespace Blog

def versionsOf (b : Blog) (post : Uuid) : List Version :=
  match b.get? post with
  | some h => h.versions post
  | none => []

def put (b : Blog) (id : Uuid) (h : History) : Blog :=
  b.insert id h

/-- The version with an identifier, whichever post it is of. -/
def version? (b : Blog) (id : Uuid) : Option Version :=
  b.keys.findSome? fun post => (b.versionsOf post).find? (·.id = id)

/-! ## Operations -/

/-- Why a text or two may not be blank. -/
def blankRefusal? (title content : String) : Option String :=
  if title = "" then
    if content = "" then some "title and content required" else some "title required"
  else if content = "" then some "content required"
  else none

/-- The identifier of a new version is in use. -/
def duplicateVersion (post : Uuid) (number : Int) : Error :=
  .internal ("duplicate version " ++ String.ofList (Text.signedDecimal number) ++ " of post " ++
    post.toText)

variable (sanitizer : Sanitizer) (now : Instant) (fresh : Nat → Uuid) (b : Blog)

/-- Makes a post with a draft. -/
def create (r : CreatePost) : Except Error Reply × Blog :=
  let title := sanitizer r.title
  let content := sanitizer r.content
  let draft : Draft := { version := fresh 1, title, content, created := now }
  match blankRefusal? title content with
  | some text => (.error (.invalidInput text), b)
  | none =>
    if b.contains (fresh 0) then
      (.error (.internal ("duplicate post id " ++ (fresh 0).toText)), b)
    else if (b.version? (fresh 1)).isSome then (.error (duplicateVersion (fresh 0) 1), b)
    else (.ok (.post (.of (draft.toVersion (fresh 0) 1))),
      b.put (fresh 0) { created := now, updated := now, publications := [], draft := some draft })

/-- Changes the draft, or starts one from the last publication. -/
def update (id : Uuid) (r : UpdatePost) : Except Error Reply × Blog :=
  let title := cleanOption sanitizer r.title
  let content := cleanOption sanitizer r.content
  if title = none ∧ content = none then (.error (.invalidInput "title or content is required"), b)
  else match b.get? id with
    | none => (.error (.postNotFound id), b)
    | some h => match h.draft, h.publications.getLast? with
      | some d, _ =>
        let draft := { d with title := title.getD d.title, content := content.getD d.content }
        (.ok (.post (.of (draft.toVersion id (h.last + 1)))),
          b.put id { h with draft := some draft })
      | none, some p =>
        let draft : Draft :=
          { version := fresh 0, title := title.getD p.title, content := content.getD p.content
            created := now }
        if (b.version? (fresh 0)).isSome then (.error (duplicateVersion id (h.last + 1)), b)
        else (.ok (.post (.of (draft.toVersion id (h.last + 1)))),
          b.put id { h with updated := now, draft := some draft })
      | none, none => (.error (.noVersions id), b)

/-- Makes the draft the last publication. -/
def publish (id : Uuid) : Except Error Reply × Blog :=
  match b.get? id with
  | none => (.error (.postNotFound id), b)
  | some h => match h.draft, h.publications.getLast? with
    | some d, _ =>
      (.ok (.published { post := id, version := d.version, published := now, title := d.title
                         content := d.content }),
        b.put id { h with
          updated := now, publications := h.publications ++ [d.publish now], draft := none })
    | none, some p => (.error (.alreadyPublished p.version), b)
    | none, none => (.error (.noVersions id), b)

def deleteDraft (id : Uuid) : Except Error Reply × Blog :=
  match b.get? id with
  | none => (.error (.postNotFound id), b)
  | some h => match h.draft, h.publications.getLast? with
    | some _, _ => (.ok .done, b.put id { h with updated := now, draft := none })
    | none, some p => (.error (.notDeletable p.version), b)
    | none, none => (.error (.noVersions id), b)

/-- Shows the draft, or else the last publication, with the categories of that version. -/
def getPost (categories : Uuid → List Category) (id : Uuid) : Except Error Reply :=
  match b.get? id with
  | none => .error (.postNotFound id)
  | some h => match h.shown? id with
    | none => .error (.postNotFound id)
    | some v => .ok (.detail (.of (.of (h.post id) v) (categories v.id)))

/-- Shows a publication or a draft. -/
def getVersion (id : Uuid) : Except Error Reply :=
  match b.version? id with
  | none => .error (.versionNotFound id)
  | some v => .ok (.version v)

/-- What the machine answers to an operation on posts, and what it is afterwards. -/
def step (categories : Uuid → List Category) : Operation → Option (Except Error Reply) × Blog
  | .createPost r => (some (b.create sanitizer now fresh r).1, (b.create sanitizer now fresh r).2)
  | .updatePost id r =>
    (some (b.update sanitizer now fresh id r).1, (b.update sanitizer now fresh id r).2)
  | .publishPost id => (some (b.publish now id).1, (b.publish now id).2)
  | .deleteDraft id => (some (b.deleteDraft now id).1, (b.deleteDraft now id).2)
  | .getPost id => (some (b.getPost categories id), b)
  | .getVersion id => (some (b.getVersion id), b)
  | .createCategory _ | .updateCategory .. | .getCategory _ | .attach _ => (none, b)

end Blog

end Weblog

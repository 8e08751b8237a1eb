import Weblog.Requests
import Weblog.Sanitizer
import Weblog.Script

/-!
# Operations on posts

Posts are made, edited, published and shown, and their drafts deleted. Every change is one
transaction. It first locks the post and then its latest version, so that changes of one post
follow each other; the clock is read before the transaction begins.
-/

namespace Weblog

/-! ## Required texts -/

/-- Refuses a request whose fields of these names are blank. -/
def refuseBlank : List String → Except Error Unit
  | [] => .ok ()
  | names => .error (.invalidInput (String.intercalate " and " names ++ " required"))

/-- The names of the fields whose texts are empty. -/
def blankFields (fields : List (String × String)) : List String :=
  (fields.filter (·.2 = "")).map (·.1)

/-- A text that may be absent, cleaned; what is blank counts as absent. -/
def cleanOption (sanitizer : Sanitizer) (raw : Option String) : Option String :=
  (raw.map sanitizer).filter (· ≠ "")

namespace Posts

/-! ## Inside a transaction -/

def lockPost (id : Uuid) : Task Post := do
  Task.require (.postNotFound id) (← Task.call (.lockPost id))

/-- Locks the latest version of a post. -/
def lockLatest (post : Uuid) : Task Version := do
  Task.require (.noVersions post) (← Task.call (.lockLatestVersion post))

/-- Makes a post with its first draft. -/
def createIn (title content : String) (now : Instant) : Task Version := do
  let post := Post.new (← Task.takeId) now
  Task.call (.createPost post)
  let version := Version.firstDraft (← Task.takeId) post.id title content now
  Task.call (.createVersion version)
  Task.call (.updatePost (post.pointTo version.id now))
  return version

/-- Edits the latest version of a post; a text that is absent stays as it is. -/
def updateIn (id : Uuid) (title content : Option String) (now : Instant) : Task Version := do
  let post ← lockPost id
  let latest ← lockLatest id
  match latest.revise (title.getD latest.title) (content.getD latest.content) now with
  | .amended draft =>
    Task.call (.updateVersion draft)
    Task.report (.draftAmended id draft.id draft.number)
    return draft
  | .superseded next =>
    let draft := next (← Task.takeId)
    Task.call (.createVersion draft)
    Task.call (.updatePost (post.pointTo draft.id now))
    Task.report (.draftStacked id draft.id draft.number)
    return draft

/-- Publishes the latest version of a post. -/
def publishIn (id : Uuid) (now : Instant) : Task Version := do
  let post ← lockPost id
  let latest ← lockLatest id
  let published ← Task.ofExcept (latest.publish now)
  Task.call (.updateVersion published)
  Task.call (.updatePost (post.pointTo published.id now))
  Task.report (.versionPublished id published.id published.number)
  return published

/-- Deletes the latest version of a post, which then shows the version before it, if there is one. -/
def deleteDraftIn (id : Uuid) (now : Instant) : Task Unit := do
  let post ← lockPost id
  let latest ← lockLatest id
  Task.ofExcept latest.ensureDeletable
  Task.call (.deleteVersion latest.id)
  let previous : Option Version ← Task.call (.lockLatestVersion id)
  let current := previous.map (·.id)
  Task.call (.updatePost (post.pointTo current now))
  Task.report (.draftDeleted id latest.id latest.number current)

/-! ## Operations -/

/-- Makes a post. Both texts are required. -/
def create (sanitizer : Sanitizer) (r : CreatePost) : Task PostReply := do
  let title := sanitizer r.title
  let content := sanitizer r.content
  Task.ofExcept (refuseBlank (blankFields [("title", title), ("content", content)]))
  let now ← Task.readClock
  let version ← Task.transact (createIn title content now)
  return .of version

/-- Edits a post. At least one text is required. -/
def update (sanitizer : Sanitizer) (id : Uuid) (r : UpdatePost) : Task PostReply := do
  let title := cleanOption sanitizer r.title
  let content := cleanOption sanitizer r.content
  if title.isNone ∧ content.isNone then
    throw (.invalidInput "title or content is required")
  let now ← Task.readClock
  let version ← Task.transact (updateIn id title content now)
  return .of version

def publish (id : Uuid) : Task PublishReply := do
  let now ← Task.readClock
  let version ← Task.transact (publishIn id now)
  return .of version now

def deleteDraft (id : Uuid) : Task Unit := do
  let now ← Task.readClock
  Task.transact (deleteDraftIn id now)

/-- Shows a post with the version it points to and that version's categories. -/
def get (id : Uuid) : Task PostDetail := do
  let row ← Task.require (.postNotFound id) (← Task.query (.currentPost id))
  let categories ← Task.query (.categoriesOf row.version)
  return .of row categories

def getVersion (id : Uuid) : Task Version := do
  Task.require (.versionNotFound id) (← Task.query (.version id))

end Posts

end Weblog

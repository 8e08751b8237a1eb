import Weblog.Error
import Weblog.Time.Text

/-!
# Posts and their versions

A post keeps its identity while its text changes; the text is in its versions, which are numbered
from one. A version is a draft until it is published. A draft is amended in place, a published
version stays as it is: an edit of it makes a draft with the next number. Only drafts can be
published, and only drafts can be deleted.
-/

namespace Weblog

/-- A post: the version it shows, if it has one, and when it was made and last changed. -/
structure Post where
  id : Uuid
  current : Option Uuid
  created : Instant
  updated : Instant
  deriving DecidableEq

/-- A version of a post. -/
structure Version where
  id : Uuid
  post : Uuid
  number : Int
  title : String
  content : String
  published : Option Instant
  created : Instant
  deriving DecidableEq

/-- Whether a version can still change. -/
inductive Status where
  | draft
  | published
  deriving DecidableEq

def Status.name : Status → String
  | .draft => "draft"
  | .published => "published"

/-- The status that the time of publication stands for. -/
def Status.of : Option Instant → Status
  | some _ => .published
  | none => .draft

namespace Post

/-- A post that shows nothing yet. -/
def new (id : Uuid) (now : Instant) : Post :=
  { id, current := none, created := now, updated := now }

/-- The post when it shows another version, or none. -/
def pointTo (post : Post) (version : Option Uuid) (now : Instant) : Post :=
  { post with current := version, updated := now }

end Post

namespace Version

/-- The first version of a post. -/
def firstDraft (id post : Uuid) (title content : String) (now : Instant) : Version :=
  { id, post, number := 1, title, content, published := none, created := now }

/-- Whether the version can still change. -/
def status (v : Version) : Status :=
  .of v.published

def isPublished (v : Version) : Bool :=
  v.status = .published

/-- What an edit of a version makes of it. -/
inductive Revision where
  /-- The version is a draft and has the new text. -/
  | amended (draft : Version)
  /-- The version is published; a draft with the next number follows it, and needs an identifier. -/
  | superseded (draft : Uuid → Version)

/-- Edits a version. -/
def revise (v : Version) (title content : String) (now : Instant) : Revision :=
  match v.status with
  | .draft => .amended { v with title, content }
  | .published => .superseded fun id =>
    { id, post := v.post, number := v.number + 1, title, content, published := none,
      created := now }

def publish (v : Version) (now : Instant) : Except Error Version :=
  if v.isPublished then .error (.alreadyPublished v.id) else .ok { v with published := some now }

/-- Refuses the deletion of a published version. -/
def ensureDeletable (v : Version) : Except Error Unit :=
  if v.isPublished then .error (.notDeletable v.id) else .ok ()

end Version

/-- A post with the version it shows. -/
structure CurrentPost where
  id : Uuid
  version : Uuid
  created : Instant
  updated : Instant
  title : String
  content : String
  number : Int
  published : Option Instant
  deriving DecidableEq

/-- A post with a version of it. -/
def CurrentPost.of (post : Post) (version : Version) : CurrentPost :=
  { id := post.id, version := version.id, created := post.created, updated := post.updated
    title := version.title, content := version.content, number := version.number
    published := version.published }

end Weblog

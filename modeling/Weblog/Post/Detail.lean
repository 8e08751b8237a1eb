import Weblog.Category
import Weblog.Post.Basic

/-!
# A post in full

What a reader is shown of a post: the version it shows and the categories of that version.
-/

namespace Weblog

/-- A post with the version it shows and that version's categories. -/
structure PostDetail where
  post : Uuid
  version : Uuid
  title : String
  content : String
  number : Int
  status : Status
  published : Option Instant
  categories : List Category
  created : Instant
  updated : Instant
  deriving DecidableEq

def PostDetail.of (row : CurrentPost) (categories : List Category) : PostDetail :=
  { post := row.id, version := row.version, title := row.title, content := row.content
    number := row.number, status := .of row.published, published := row.published, categories
    created := row.created, updated := row.updated }

end Weblog

import Weblog.Record.Rows

/-!
# Requests and replies

What callers send to change posts and categories, and what they are told when it is done.
-/

namespace Weblog

/-! ## Requests -/

/-- Asks for a new post. -/
structure CreatePost where
  title : String
  content : String
  deriving DecidableEq

/-- Asks for an edit of a post; what is absent stays as it is. -/
structure UpdatePost where
  title : Option String
  content : Option String
  deriving DecidableEq

/-- Gives the name of a category that is to be made or renamed. -/
structure NameCategory where
  name : String
  deriving DecidableEq

/-- Asks for a version to be put into categories. -/
structure AttachCategories where
  version : Uuid
  categories : List Uuid
  deriving DecidableEq

instance : Record CreatePost where
  schema := ⟨"CreatePostRequest", [⟨"title", .one .text⟩, ⟨"content", .one .text⟩]⟩
  ofValues := fun (title, content, ()) => { title, content }

instance : Record UpdatePost where
  schema := ⟨"UpdatePostRequest", [⟨"title", .optional .text⟩, ⟨"content", .optional .text⟩]⟩
  ofValues := fun (title, content, ()) => { title, content }

instance : Record NameCategory where
  schema := ⟨"CategoryRequest", [⟨"name", .one .text⟩]⟩
  ofValues := fun (name, ()) => { name }

instance : Record AttachCategories where
  schema := ⟨"AttachCategoriesRequest", [⟨"post_version_id", .one .uuid⟩,
    ⟨"category_ids", .many .uuid⟩]⟩
  ofValues := fun (version, categories, ()) => { version, categories }

/-- The members of a list that occur before them already, each time they do. -/
def repeats {α : Type} [DecidableEq α] (seen : List α) : List α → List α
  | [] => []
  | a :: rest => if a ∈ seen then a :: repeats seen rest else repeats (a :: seen) rest

/-- Refuses an empty list of categories and categories that are named twice. -/
def AttachCategories.validate (r : AttachCategories) : Except Error Unit :=
  if r.categories = [] then .error (.invalidInput "category ids required")
  else
    let duplicates := repeats [] r.categories
    if duplicates = [] then .ok ()
    else .error (.invalidInput ("duplicate category ids: " ++ Error.listIds duplicates))

/-! ## Replies -/

/-- Says which version holds the text of a post now. -/
structure PostReply where
  post : Uuid
  version : Uuid
  number : Int
  title : String
  content : String
  deriving DecidableEq

def PostReply.of (v : Version) : PostReply :=
  { post := v.post, version := v.id, number := v.number, title := v.title, content := v.content }

/-- Says which version was published. -/
structure PublishReply where
  post : Uuid
  version : Uuid
  published : Instant
  title : String
  content : String
  deriving DecidableEq

def PublishReply.of (v : Version) (now : Instant) : PublishReply :=
  { post := v.post, version := v.id, published := v.published.getD now, title := v.title
    content := v.content }

def PostReply.toJson (r : PostReply) : Json :=
  .object [("post_id", r.post.toJson), ("post_version_id", r.version.toJson),
    ("version_number", .integer r.number), ("title", .string r.title),
    ("content", .string r.content)]

def PublishReply.toJson (r : PublishReply) : Json :=
  .object [("post_id", r.post.toJson), ("post_version_id", r.version.toJson),
    ("published_at", r.published.toJson), ("title", .string r.title),
    ("content", .string r.content)]

end Weblog

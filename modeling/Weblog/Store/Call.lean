import Weblog.Post.Detail

/-!
# Calls to the store

What the service asks of the store. Between `begin` and `commit` or `rollback` a transaction is
open; calls are made in it, and queries outside of it.
-/

namespace Weblog

/-- A call in a transaction. -/
inductive Call where
  | createPost (post : Post)
  /-- Sets the version that a post points to and the time of its last change. -/
  | updatePost (post : Post)
  | lockPost (id : Uuid)
  | createVersion (version : Version)
  /-- Sets the title, the content and the time of publication of a version. -/
  | updateVersion (version : Version)
  | lockLatestVersion (post : Uuid)
  | lockVersion (id : Uuid)
  /-- Deletes a version together with its links. -/
  | deleteVersion (id : Uuid)
  | createCategory (category : Category)
  /-- Sets the name of a category and the time of its last change. -/
  | updateCategory (category : Category)
  | lockCategory (id : Uuid)
  | findCategoryByName (name : String)
  | findCategories (ids : List Uuid)
  /-- Adds the links that are not there yet and answers their number. -/
  | attach (links : List Link)
  deriving DecidableEq

abbrev Call.Answer : Call → Type
  | createPost _ | updatePost _ | createVersion _ | updateVersion _ | deleteVersion _
  | createCategory _ | updateCategory _ => Unit
  | lockPost _ => Option Post
  | lockLatestVersion _ | lockVersion _ => Option Version
  | lockCategory _ | findCategoryByName _ => Option Category
  | findCategories _ => List Category
  | attach _ => Nat

/-- A query outside of a transaction. -/
inductive Query where
  | currentPost (id : Uuid)
  | version (id : Uuid)
  | category (id : Uuid)
  | categoriesOf (version : Uuid)
  deriving DecidableEq

abbrev Query.Answer : Query → Type
  | currentPost _ => Option CurrentPost
  | version _ => Option Version
  | category _ => Option Category
  | categoriesOf _ => List Category

/-- Everything that can be asked of the store. -/
inductive Access where
  | begin
  | commit
  | rollback
  | call (c : Call)
  | query (q : Query)
  deriving DecidableEq

abbrev Access.Answer : Access → Type
  | begin | commit | rollback => Unit
  | call c => c.Answer
  | query q => q.Answer

/-! ## Methods -/

/-- The ways to ask something of the store, without what is asked. -/
inductive Method where
  | begin
  | commit
  | rollback
  | createPost
  | updatePost
  | lockPost
  | currentPost
  | createVersion
  | updateVersion
  | lockLatestVersion
  | lockVersion
  | version
  | deleteVersion
  | createCategory
  | updateCategory
  | category
  | lockCategory
  | findCategoryByName
  | findCategories
  | attach
  | categoriesOf
  deriving DecidableEq

def Call.method : Call → Method
  | createPost _ => .createPost
  | updatePost _ => .updatePost
  | lockPost _ => .lockPost
  | createVersion _ => .createVersion
  | updateVersion _ => .updateVersion
  | lockLatestVersion _ => .lockLatestVersion
  | lockVersion _ => .lockVersion
  | deleteVersion _ => .deleteVersion
  | createCategory _ => .createCategory
  | updateCategory _ => .updateCategory
  | lockCategory _ => .lockCategory
  | findCategoryByName _ => .findCategoryByName
  | findCategories _ => .findCategories
  | attach _ => .attach

def Query.method : Query → Method
  | currentPost _ => .currentPost
  | version _ => .version
  | category _ => .category
  | categoriesOf _ => .categoriesOf

/-- The method of anything asked of the store. -/
def Access.method : Access → Method
  | begin => .begin
  | commit => .commit
  | rollback => .rollback
  | call c => c.method
  | query q => q.method

namespace Method

def name : Method → String
  | begin => "tx.begin"
  | commit => "tx.commit"
  | rollback => "tx.rollback"
  | createPost => "posts.create"
  | updatePost => "posts.update"
  | lockPost => "posts.find_by_id_for_update"
  | currentPost => "posts.find_with_current_version"
  | createVersion => "versions.create"
  | updateVersion => "versions.update"
  | lockLatestVersion => "versions.find_latest_by_post_id_for_update"
  | lockVersion => "versions.find_by_id_for_update"
  | version => "versions.find_by_id"
  | deleteVersion => "versions.delete"
  | createCategory => "categories.create"
  | updateCategory => "categories.update"
  | category => "categories.find_by_id"
  | lockCategory => "categories.find_by_id_for_update"
  | findCategoryByName => "categories.find_by_name"
  | findCategories => "categories.find_by_ids"
  | attach => "categories.attach_to_post_version"
  | categoriesOf => "categories.list_by_post_version"

end Method

end Weblog

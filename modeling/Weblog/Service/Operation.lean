import Weblog.Service.Categories
import Weblog.World

/-!
# Operations of the service

All that callers can ask of the service, as one type, with one script and one type of results.
-/

namespace Weblog

/-- What callers can ask of the service. -/
inductive Operation where
  | createPost (r : CreatePost)
  | updatePost (id : Uuid) (r : UpdatePost)
  | publishPost (id : Uuid)
  | deleteDraft (id : Uuid)
  | getPost (id : Uuid)
  | getVersion (id : Uuid)
  | createCategory (r : NameCategory)
  | updateCategory (id : Uuid) (r : NameCategory)
  | getCategory (id : Uuid)
  | attach (r : AttachCategories)
  deriving DecidableEq

/-- What the service answers. -/
inductive Reply where
  | post (r : PostReply)
  | published (r : PublishReply)
  | detail (d : PostDetail)
  | version (v : Version)
  | category (c : Category)
  | done
  deriving DecidableEq

/-- A reply as JSON; there is nothing to say of what was merely done. -/
def Reply.toJson : Reply → Json
  | .post r => r.toJson
  | .published r => r.toJson
  | .detail d => d.toJson
  | .version v => v.toJson
  | .category c => c.toJson
  | .done => .null

namespace Operation

/-- How an operation is done. -/
def task (sanitizer : Sanitizer) : Operation → Task Reply
  | createPost r => .post <$> Posts.create sanitizer r
  | updatePost id r => .post <$> Posts.update sanitizer id r
  | publishPost id => .published <$> Posts.publish id
  | deleteDraft id => (fun () => .done) <$> Posts.deleteDraft id
  | getPost id => .detail <$> Posts.get id
  | getVersion id => .version <$> Posts.getVersion id
  | createCategory r => .category <$> Categories.create sanitizer r
  | updateCategory id r => .category <$> Categories.rename sanitizer id r
  | getCategory id => .category <$> Categories.get id
  | attach r => (fun () => .done) <$> Categories.attach r

/-- Whether an operation can change something. -/
def isMutation : Operation → Bool
  | getPost _ | getVersion _ | getCategory _ => false
  | _ => true

def perform (s : Surroundings) (sanitizer : Sanitizer) (op : Operation) (w : World) :
    Outcome (Except Error Reply) × World :=
  (op.task sanitizer).run.perform s w

end Operation

/-- Does operations one after another and keeps their outcomes. -/
def performAll (s : Surroundings) (sanitizer : Sanitizer) :
    List Operation → World → List (Outcome (Except Error Reply)) × World
  | [], w => ([], w)
  | op :: rest, w =>
    let (outcome, w) := op.perform s sanitizer w
    let (outcomes, w) := performAll s sanitizer rest w
    (outcome :: outcomes, w)

end Weblog

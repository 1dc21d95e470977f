/-!
# Layers

A page is painted from its first content to its last, so what comes later covers what came before.
The layer decides on which side of a page's own content the new content stands.
-/

namespace Overprint

/-- Where new content goes: under what a page shows, or over it. -/
inductive Layer where
  | under
  | over
deriving DecidableEq

end Overprint

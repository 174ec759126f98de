import Comfort.Text.Extending
import Comfort.Text.Printable

/-!
Single characters in messages.
-/

namespace Comfort
namespace Text

/-- A character as a message shows it by itself.  One that cannot be seen, or that would join the
quote in front of it, is named by its code point. -/
def visible (c : Char) : List Char :=
  if isPrintable c && !isExtending c then [c]
  else ['\\', 'u', '\x7b'] ++ Nat.toDigits 16 c.toNat ++ ['\x7d']

end Text
end Comfort

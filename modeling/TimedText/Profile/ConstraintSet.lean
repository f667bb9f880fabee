import TimedText.Check.Bytes
import TimedText.Check.Composition
import TimedText.Profile.Summary
/-!
Constraint sets: what is checked of a document, in order, and how the findings
are summed up.
-/

namespace TimedText.Profile

structure ConstraintSet where
  name : String
  byteChecks : List Check.ByteCheck
  checks : List Check.ElementCheck
  conclude : Log → Conclusion

end TimedText.Profile

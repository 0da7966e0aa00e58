/-!
# Faults of a log

Reading a log, and showing what was read, fails for one of three reasons. They are told apart
because each has its own consequence: a log may end in the middle of a frame, a log that makes
no sense is refused, and what cannot be handled at all ends the whole program.
-/

namespace PolledUart.Log

/-- Why no value can be read or shown. -/
inductive Fault where
  /-- There are too few bytes. -/
  | short
  /-- The bytes, or the text of a format, stand for nothing. -/
  | malformed
  /-- What is asked for is beyond all that can be done. -/
  | breakdown
deriving Repr, DecidableEq

end PolledUart.Log

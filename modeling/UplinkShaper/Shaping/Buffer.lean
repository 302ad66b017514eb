import UplinkShaper.Failure

/-!
Queue limits. The product of bandwidth and delay is padded by half of itself, and
kept within bounds: slow classes still absorb a burst, and fast ones do not build
up latency.
-/

namespace UplinkShaper

namespace Buffer

def minimum : Int := 4096

def maximum : Int := 131072

/-- Milliseconds of a round trip, where nothing else is said. -/
def defaultRoundTrip : Number := 50

/-- The bytes of a full frame. -/
def frameSize : Int := 1514

/-- Padded and kept within bounds. -/
def limit (product : Int) : Int :=
  max minimum (min maximum (product / 8 * 3 / 2))

theorem minimum_le_limit (product : Int) : minimum ≤ limit product := by
  simp only [limit]; omega

theorem limit_le_maximum (product : Int) : limit product ≤ maximum := by
  simp only [limit, minimum, maximum]; omega

/-- The queue limit in bytes of a class that is shaped to a rate in kilobits per
second, for a round trip in milliseconds. -/
def size (rate roundTrip : Number) : Except Failure Int := do
  let product ← arithmetic (rate.mul roundTrip)
  return limit (← arithmetic product.wholePart)

/-- A limit in bytes as full frames, at least one. -/
def frames (bytes : Number) : Except Failure Number := do
  let count ← arithmetic (bytes.neg.floorDiv (.whole frameSize))
  return if (Number.whole 1).lt count.neg then count.neg else 1

/-- A whole limit in bytes as full frames. -/
def wholeFrames (bytes : Int) : Int :=
  max 1 (-((-bytes) / frameSize))

end Buffer

end UplinkShaper

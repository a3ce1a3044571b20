import ImgEngine.Library.Observer
import ImgEngine.Runtime.QueueMpmc
import ImgEngine.Runtime.QueueSpsc

namespace ImgEngine.Runtime

open ImgEngine.Library.Interleaving

-- (uint32_t)(capacity * 0.9). The double 0.9 is 8106479329266893 / 2^53, and its product
-- with a power of two, which a capacity is, is not rounded.
def nineTenths (capacity : UInt32) : UInt32 :=
  .ofNat (capacity.toNat * 8106479329266893 / 2 ^ 53)

-- The checks load head and then tail, on a queue that is not null.

def imgBackpressureCheckSpsc : Observer ImgQueue (PairView UInt32) Bool :=
  pairObserver ImgQueue.head fun h q => (q.tail - h) &&& q.mask > nineTenths q.capacity

def imgBackpressureCheckMpmc : Observer ImgMpmcQueue (PairView UInt64) Bool :=
  pairObserver ImgMpmcQueue.head fun head q => q.tail - head > q.size * 3 / 4

-- What the threads did, in numbers.

namespace ImgSpsc

def waiting (events : History) : Nat := (accepted events).length - (delivered events).length

end ImgSpsc

namespace ImgMpmc

variable {Thread : Type}

def pushesClaimed (events : History Thread) : Nat := (events.filterMap pushClaim).length

def popsClaimed (events : History Thread) : Nat := (events.filterMap popClaim).length

def inUse (events : History Thread) : Nat := pushesClaimed events - popsClaimed events

end ImgMpmc

end ImgEngine.Runtime

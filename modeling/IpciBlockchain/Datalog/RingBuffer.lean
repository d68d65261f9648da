import IpciBlockchain.Foundation.BoundedLog

namespace IpciBlockchain
namespace Datalog

open Foundation

/-!
# The ring buffer of the datalog pallet

`RingBufferItem`, `RingBufferIndex` and its draining iterator, as the pallet
defines them.  All counters are `u64` and `+= 1` wraps, as it does in the
release build of the runtime.  The window is a parameter of every operation:
it is read from the runtime's configuration at each call and is not part of
the stored index.
-/

/-- A record together with the time at which it was stored. -/
structure RingBufferItem (Moment Record : Type) where
  now : Moment
  record : Record
  deriving DecidableEq, Repr

namespace RingBufferItem

variable {Moment Record : Type}

instance [Inhabited Moment] [Inhabited Record] : Inhabited (RingBufferItem Moment Record) :=
  ⟨⟨default, default⟩⟩

def into (self : RingBufferItem Moment Record) : Moment × Record :=
  (self.now, self.record)

end RingBufferItem

/-- The stored pointers of one account.  The field `end_` is the source's
`end`, which Lean reserves. -/
structure RingBufferIndex where
  start : UInt64
  end_ : UInt64
  deriving DecidableEq, Repr

/-- The iterator owns a copy of the index and the window it was made with. -/
structure RingBufferIterator where
  inner : RingBufferIndex
  max : UInt64
  deriving DecidableEq, Repr

namespace RingBufferIndex

instance : Inhabited RingBufferIndex := ⟨⟨0, 0⟩⟩

/-- Advance a pointer.  It returns to zero only when it hits `max` exactly. -/
def next (val max : UInt64) : UInt64 :=
  let val := val + 1
  if val = max then 0 else val

/-- Reserve the slot at `end_` for a new item.  When the ring is full the
oldest item leaves the live range; its slot is not cleared. -/
def add (self : RingBufferIndex) (max : UInt64) : UInt64 × RingBufferIndex :=
  let v := self.end_
  let self := { self with end_ := next self.end_ max }
  let self := if self.start = self.end_ then { self with start := next self.start max } else self
  (v, self)

def iter (self : RingBufferIndex) (max : UInt64) : RingBufferIterator :=
  { inner := self, max := max }

end RingBufferIndex

namespace RingBufferIterator

/-- One call of the iterator: the slot it yields and the iterator it leaves. -/
def next (self : RingBufferIterator) : Option (UInt64 × RingBufferIterator) :=
  if self.inner.end_ = self.inner.start then none
  else
    let u := self.inner.start
    some (u, { self with
      inner := { self.inner with start := RingBufferIndex.next self.inner.start self.max } })

/-- A loop over the iterator that is allowed `fuel` calls of `next`, the last
of which has to answer `None`.  It returns the slots in the order in which
they are yielded and the exhausted iterator. -/
def drain : ℕ → RingBufferIterator → Option (List UInt64 × RingBufferIterator)
  | 0, _ => none
  | fuel + 1, self =>
      match self.next with
      | none => some ([], self)
      | some (u, later) => (drain fuel later).map fun drained => (u :: drained.1, drained.2)

/-- The loop ends after some number of calls. -/
def Terminates (self : RingBufferIterator) : Prop :=
  ∃ fuel outcome, self.drain fuel = some outcome

/-- The number of values of a `u64` counter.  `collect_isSome_iff` shows that
a loop which has not ended after this many calls never ends. -/
def fuelBound : ℕ := 2 ^ 64

/-- All slots of the loop, or `none` if the loop never ends. -/
def collect (self : RingBufferIterator) : Option (List UInt64) :=
  (self.drain fuelBound).map Prod.fst

end RingBufferIterator

/-! ## The same operations with overflow checks

A build with overflow checks panics where the release build wraps.  These
versions answer `none` at the panic, so that "no increment overflows" can be
stated of the operations themselves. -/

namespace RingBufferIndex

def nextChecked (val max : UInt64) : Option UInt64 :=
  if val.toNat + 1 < 2 ^ 64 then some (next val max) else none

def addChecked (self : RingBufferIndex) (max : UInt64) : Option (UInt64 × RingBufferIndex) := do
  let v := self.end_
  let end_ ← nextChecked self.end_ max
  if self.start = end_ then
    let start ← nextChecked self.start max
    pure (v, { start := start, end_ := end_ })
  else
    pure (v, { start := self.start, end_ := end_ })

end RingBufferIndex

/-- The loop of `drain` in a build with overflow checks. -/
def RingBufferIterator.drainChecked :
    ℕ → RingBufferIterator → Option (List UInt64 × RingBufferIterator)
  | 0, _ => none
  | fuel + 1, self =>
      if self.inner.end_ = self.inner.start then some ([], self)
      else
        (RingBufferIndex.nextChecked self.inner.start self.max).bind fun start =>
          (drainChecked fuel { self with inner := { self.inner with start := start } }).map
            fun drained => (self.inner.start :: drained.1, drained.2)

end Datalog
end IpciBlockchain

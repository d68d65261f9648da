import IpciBlockchain.Datalog.Pallet

namespace IpciBlockchain
namespace Datalog

/-!
# The pallet over byte vectors

The runtime stores byte vectors and fixes the window and the message size.
`frame_system` and the codec are not part of the repository: the origins,
`ensure_signed`, the size hint and `deposit_event` below behave as those
crates document, and no general result about the pallet relies on this
instance.
-/

/-- The origins that `frame_system` distinguishes. -/
inductive RawOrigin (AccountId : Type) where
  | root
  | signed (account : AccountId)
  | none
  deriving DecidableEq, Repr

/-- The pallet over byte vectors, for any window and message size. -/
def byteTrait (AccountId : Type) (windowSize : UInt64) (maximumMessageSize : ℕ) :
    Trait (RawOrigin AccountId) AccountId UInt64 (List UInt8) where
  windowSize := windowSize
  maximumMessageSize := maximumMessageSize
  sizeHint := fun bytes => 4 + bytes.length
  ensureSigned := fun
    | .signed account => .ok account
    | _ => .error .badOrigin
  depositEvent := fun event system =>
    if system.blockNumber = 0 then system
    else { system with events := system.events ++ [event] }

def datalogWindowSize : UInt64 := 128

def datalogMaximumMessageSize : ℕ := 512

/-- The configuration that the runtime gives to the pallet. -/
def runtimeTrait (AccountId : Type) :
    Trait (RawOrigin AccountId) AccountId UInt64 (List UInt8) :=
  byteTrait AccountId datalogWindowSize datalogMaximumMessageSize

/-- Empty pallet storage at a given block. -/
def freshState (AccountId : Type) (blockNumber : ℕ) :
    State AccountId UInt64 (List UInt8) where
  storage := Storage.empty
  system := { blockNumber := blockNumber, events := [] }
  trace := []

/-- A signed `record` of some bytes. -/
def recordBy {AccountId : Type} (account : AccountId) (now : UInt64) (bytes : List UInt8) :
    Extrinsic (RawOrigin AccountId) UInt64 (List UInt8) where
  origin := .signed account
  now := now
  call := .record bytes

/-- A signed `erase`. -/
def eraseBy {AccountId : Type} (account : AccountId) :
    Extrinsic (RawOrigin AccountId) UInt64 (List UInt8) where
  origin := .signed account
  now := 0
  call := .erase

end Datalog
end IpciBlockchain

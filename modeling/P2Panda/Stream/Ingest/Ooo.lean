import P2Panda.Core.Operation
import P2Panda.Library.IndexMap

/-!
# Out-of-order buffer

Operations without their predecessor wait in a buffer, under the hash of the operation they wait
for.
-/

namespace P2Panda.Stream.Ingest

open P2Panda.Library P2Panda.Core

variable {ID L T V E : Type}

structure ChainRingKey (ID L : Type) where
  backlink : Option ID
  logId : L
  deriving DecidableEq

structure ChainRingValue (ID T : Type) where
  id : ID
  item : T

structure ChainRing (ID L T : Type) where
  buffer : IndexMap (ChainRingKey ID L) (ChainRingValue ID T)
  capacity : Nat

namespace ChainRing

def withCapacity (capacity : Nat) : ChainRing ID L T := ⟨IndexMap.empty, capacity⟩

variable [DecidableEq ID] [DecidableEq L]

def push (ring : ChainRing ID L T) (id : ID) (backlink : Option ID) (logId : L) (item : T) :
    ChainRing ID L T :=
  let buffer := if ring.capacity ≤ ring.buffer.len then ring.buffer.pop else ring.buffer
  ⟨buffer.insert ⟨backlink, logId⟩ ⟨id, item⟩, ring.capacity⟩

/-- The loop of `popFrom`, with the items popped so far. -/
def popChain (logId : L) (buffer : IndexMap (ChainRingKey ID L) (ChainRingValue ID T))
    (backlink : Option ID) (result : List T) :
    List T × IndexMap (ChainRingKey ID L) (ChainRingValue ID T) :=
  match _h : buffer.shiftRemove ⟨backlink, logId⟩ with
  | none => (result, buffer)
  | some (value, rest) => popChain logId rest (some value.id) (result ++ [value.item])
termination_by buffer.len
decreasing_by exact IndexMap.len_shiftRemove_lt _h

/-- Pop all items with a complete chain from a position: the id of the item before them. -/
def popFrom (ring : ChainRing ID L T) (backlink : Option ID) (logId : L) :
    List T × ChainRing ID L T :=
  let (result, buffer) := popChain logId ring.buffer backlink []
  (result, ⟨buffer, ring.capacity⟩)

end ChainRing

inductive OooResult (V E : Type) where
  | inOrder (operation : Operation V E)
  | ordered (operations : List (Operation V E))
  | outOfOrder
  | outdated

abbrev OooBuffer (V E L : Type) := ChainRing Hash L (Operation V E)

namespace OooBuffer

variable [DecidableEq L]

def pushAndPopFrom (buffer : OooBuffer V E L) (operation : Operation V E)
    (expectedBacklink : Option Hash) (logId : L) : OooResult V E × OooBuffer V E L :=
  let buffer := ChainRing.push buffer operation.hash operation.header.backlink logId operation
  let (result, buffer) := ChainRing.popFrom buffer expectedBacklink logId
  if result.isEmpty then (.outOfOrder, buffer) else (.ordered result, buffer)

/-- `u32::saturating_sub_signed(1)`. -/
def predecessor (seqNum : SeqNum) : SeqNum := if seqNum = 0 then 0 else seqNum - 1

def process (buffer : OooBuffer V E L) (operation : Operation V E)
    (latestHeader : Option (AnyHeader V)) (logId : L) (pruneFlag : Bool) :
    OooResult V E × OooBuffer V E L :=
  if pruneFlag then (.inOrder operation, buffer)
  else
    match latestHeader with
    | some latestHeader =>
      if operation.header.seqNum < latestHeader.seqNum then (.outdated, buffer)
      else if latestHeader.seqNum = predecessor operation.header.seqNum then
        (.inOrder operation, buffer)
      else pushAndPopFrom buffer operation latestHeader.backlink logId
    | none => pushAndPopFrom buffer operation none logId

end OooBuffer

end P2Panda.Stream.Ingest

/-
Where the bytes of an image lie in the address space.

The image is cut into regions.  Each is loaded at an address of its own, so every offset has one
address, but an address may belong to several offsets when regions overlay each other.  Seen from
a byte, the region of that byte is looked at first, then all regions in order.

A map made by `AddressMap.create` has its regions in order, without gaps, up to the end of the
image and inside the 24-bit address space.

Two questions can be asked about a range of bytes.  `isUnbroken` and `isContiguous` answer them for
ranges of the image; `unbroken` and `contiguous` take any offset and length.
-/
import Disasm65.Fault
import Disasm65.Word

namespace Disasm65

/-- A run of bytes loaded at one address. -/
structure Region where
  offset : Nat
  length : Nat
  /-- the address of the first byte -/
  address : Nat
deriving DecidableEq

namespace Region

/-- One past the region's last offset. -/
def stop (region : Region) : Nat := region.offset + region.length

def containsOffset (region : Region) (offset : Nat) : Bool :=
  region.offset ≤ offset && offset < region.stop

def containsAddress (region : Region) (address : Nat) : Bool :=
  region.address ≤ address && address - region.address < region.length

/-- The offset of an address that the region contains. -/
def offsetOf (region : Region) (address : Nat) : Nat :=
  region.offset + (address - region.address)

/-- The address of an offset that the region contains. -/
def addressOf (region : Region) (offset : Nat) : Nat :=
  wrap32 (region.address + (offset - region.offset))

/-- The offsets of the region and its address. -/
def text (region : Region) : String :=
  offsetText region.offset ++ ".." ++ offsetText region.stop ++ "=" ++ dollarHex 4 region.address

end Region

/-- The regions of an image. -/
structure AddressMap where
  regions : List Region
  totalLength : Nat
deriving DecidableEq

namespace AddressMap

/-- Check that the regions follow each other from `expected` on, and say where they end. -/
def checkRegions : (expected : Nat) → List Region → Except Fault Nat
  | expected, [] => .ok expected
  | expected, region :: rest =>
    if region.length = 0 then .error (.emptyRegion region.offset)
    else if region.offset ≠ expected then .error (.misplacedRegion region.offset expected)
    else do
      let top ← addWords region.address region.length
      if 0x1000000 < top then throw (.regionTooHigh region.offset)
      checkRegions (← addWords expected region.length) rest

/-- The map of an image of `totalLength` bytes with the given regions. -/
def create (totalLength : Nat) (regions : List Region) : Except Fault AddressMap :=
  if regions.isEmpty then .error .noRegions
  else
    match checkRegions 0 regions with
    | .error fault => .error fault
    | .ok covered =>
      if covered = totalLength then .ok ⟨regions, totalLength⟩
      else .error (.regionsMissImage covered totalLength)

/-- The map that loads the whole image at one address. -/
def single (totalLength address : Nat) : Except Fault AddressMap :=
  create totalLength [⟨0, totalLength, address⟩]

/-- The region of an offset. -/
def regionAt? (map : AddressMap) (offset : Nat) : Option Region :=
  if offset < map.totalLength then map.regions.find? fun region => offset < region.stop
  else none

/-- The address of an offset. -/
def addressOf? (map : AddressMap) (offset : Nat) : Option Nat :=
  (map.regionAt? offset).map fun region => region.addressOf offset

/-- The offset an address has when seen from the byte at `source`. -/
def offsetOf? (map : AddressMap) (source address : Nat) : Option Nat :=
  let near := (map.regionAt? source).filter fun region => region.containsAddress address
  let first := map.regions.find? fun region => region.containsAddress address
  (near.or first).map fun region => region.offsetOf address

/-- The `length` bytes at `offset` lie in one region. -/
def isUnbroken (map : AddressMap) (offset length : Nat) : Bool :=
  length != 0 &&
    match map.regionAt? offset with
    | some region => region.containsOffset (offset + length - 1)
    | none => false

/-- The addresses of the `length` bytes at `offset` go up by one from byte to byte, in one region
or across several. -/
def isContiguous (map : AddressMap) (offset length : Nat) : Bool :=
  let stop := offset + length
  length != 0 && stop ≤ map.totalLength &&
    match map.addressOf? offset with
    | some base =>
      let reached := (map.regions.dropWhile fun region => region.stop ≤ offset).takeWhile
        fun region => region.offset < stop
      reached.all fun region =>
        region.offset ≤ offset || region.address == wrap32 (base + (region.offset - offset))
    | none => false

/-- Ask whether the `length` bytes at `offset` lie in one region. -/
def unbroken (map : AddressMap) (offset length : Nat) : Except Fault Bool :=
  if length = 0 ∨ map.regionAt? offset = none then .ok false
  else (addWords offset length).map fun _ => map.isUnbroken offset length

/-- Ask whether the addresses of the `length` bytes at `offset` go up by one from byte to byte. -/
def contiguous (map : AddressMap) (offset length : Nat) : Except Fault Bool :=
  if length = 0 then .ok false
  else (addWords offset length).map fun _ => map.isContiguous offset length

/-- The offset is the first of a region. -/
def isRegionStart (map : AddressMap) (offset : Nat) : Bool :=
  map.regions.any fun region => region.offset == offset

/-- The first offsets of the regions. -/
def regionStarts (map : AddressMap) : List Nat := map.regions.map (·.offset)

/-- The regions in order. -/
def text (map : AddressMap) : String :=
  "AddressMap[" ++ ", ".intercalate (map.regions.map Region.text) ++ "]"

end AddressMap

end Disasm65

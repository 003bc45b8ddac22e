import Minemu.Platform.ImageCodec

/-! The rules on the segment records of a system image that no record can be checked for on
its own. -/

namespace Minemu.Image

open Library Platform

/-- Errors from the system-ROM wire format. -/
inductive ImageError where
  | platform (error : PlatformError)
  | invalidImage (detail : String)
  | romOverflow
deriving DecidableEq

def executable : U32 := 1#32 <<< 2
def a32InstructionSize : Nat := 4
def kernelDirectMapStart : Nat := 0xc000_0000
def kernelDirectMapEnd : Nat := 0xc400_0000

/-- A virtual range `[start, stop)` that does not wrap. -/
structure AddressRange where
  start : U32
  stop : Nat
deriving DecidableEq

namespace AddressRange

def new (start : VirtualAddress) (length : U32) : Except ImageError AddressRange := do
  let stop := start.get.toNat + length.toNat
  require (¬ stop > 2 ^ 32) (.invalidImage "segment range")
  return ⟨start.get, stop⟩

def contains (range : AddressRange) (address : VirtualAddress) : Bool :=
  range.start.toNat ≤ address.get.toNat ∧ address.get.toNat + a32InstructionSize ≤ range.stop

def overlaps (range other : AddressRange) : Bool :=
  range.start.toNat < other.stop ∧ other.start.toNat < range.stop

def overlapsKernelDirectMap (range : AddressRange) : Bool :=
  range.start.toNat < kernelDirectMapEnd ∧ kernelDirectMapStart < range.stop

end AddressRange

def validateA32Entry (entry : VirtualAddress) (detail : String) : Except ImageError Unit :=
  require (entry.get &&& 3#32 = 0) (.invalidImage detail)

/-- `(flags & EXECUTABLE != 0).then(|| range.ok()).flatten()`. -/
def initializedExecutable (flags : U32) (range : Except ε Range) : Option Range :=
  if flags &&& executable ≠ 0 then range.toOption else none

def initializedExecutableVirtualRange (segment : KernelSegment) : Option AddressRange :=
  initializedExecutable segment.flags (AddressRange.new segment.virtualAddress segment.fileSize)

def initializedExecutablePhysicalRange (segment : KernelSegment) : Option PhysicalRange :=
  initializedExecutable segment.flags (PhysicalRange.new segment.physicalAddress segment.fileSize)

def initializedExecutableModuleRange (segment : ModuleSegment) : Option AddressRange :=
  initializedExecutable segment.flags (AddressRange.new segment.virtualAddress segment.fileSize)

def physicalRange (segment : KernelSegment) : Except ImageError PhysicalRange :=
  (PhysicalRange.new segment.physicalAddress segment.memorySize).mapError .platform

def physicalRangesOverlap (left right : PhysicalRange) : Bool :=
  left.start.get.toNat < right.endExclusive ∧ right.start.get.toNat < left.endExclusive

def bootstrapInstruction : PhysicalRange := ⟨⟨bootstrapEntryPaddr⟩, 4, by decide, by decide⟩

def bootWorkspace : PhysicalRange :=
  ⟨⟨bootStackBase⟩, bootStackSize + 64, by decide, by decide⟩

/-- The inner loop: a segment against one behind it. -/
def validateKernelPair (physical : PhysicalRange) (virtualRange : AddressRange)
    (other : KernelSegment) : Except ImageError Unit := do
  let otherPhysical ← physicalRange other
  require (physicalRangesOverlap physical otherPhysical = false)
    (.invalidImage "overlapping kernel segments")
  let otherVirtual ← AddressRange.new other.virtualAddress other.memorySize
  require (virtualRange.overlaps otherVirtual = false) (.invalidImage "overlapping kernel segments")

/-- The loop over the kernel segments. -/
def validateKernelRanges : List KernelSegment → Except ImageError Unit
  | [] => return
  | segment :: others => do
    let physical ← physicalRange segment
    require (physicalRangesOverlap physical bootWorkspace = false)
      (.invalidImage "kernel segment overlaps boot ROM workspace")
    let virtualRange ← AddressRange.new segment.virtualAddress segment.memorySize
    others.forM (validateKernelPair physical virtualRange)
    validateKernelRanges others

def validateKernelRecords (segments : List KernelSegment) (entry : VirtualAddress) :
    Except ImageError Unit := do
  validateA32Entry entry "kernel entry"
  require ((segments.any fun segment =>
      (initializedExecutableVirtualRange segment).any fun range => range.contains entry) = true)
    (.invalidImage "kernel entry is not initialized executable code")
  require ((segments.any fun segment =>
      (initializedExecutablePhysicalRange segment).any fun range =>
        range.containsRange bootstrapInstruction) = true)
    (.invalidImage "missing initialized executable bootstrap segment")
  validateKernelRanges segments

/-- The inner loop: a segment against one behind it. -/
def validateModulePair (range : AddressRange) (other : ModuleSegment) : Except ImageError Unit := do
  let otherRange ← AddressRange.new other.virtualAddress other.memorySize
  require (range.overlaps otherRange = false) (.invalidImage "overlapping module segments")

/-- The loop over the segments of a module. -/
def validateModuleRanges : List ModuleSegment → Except ImageError Unit
  | [] => return
  | segment :: others => do
    let range ← AddressRange.new segment.virtualAddress segment.memorySize
    require (range.overlapsKernelDirectMap = false)
      (.invalidImage "module segment is in the kernel direct map")
    others.forM (validateModulePair range)
    validateModuleRanges others

def validateModuleRecords (segments : List ModuleSegment) (entry : VirtualAddress) :
    Except ImageError Unit := do
  validateA32Entry entry "module entry"
  require ((segments.any fun segment =>
      (initializedExecutableModuleRange segment).any fun range => range.contains entry) = true)
    (.invalidImage "module entry is not initialized executable code")
  validateModuleRanges segments

end Minemu.Image

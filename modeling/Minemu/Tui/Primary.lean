import Minemu.Tui.CommandBar
import Minemu.Unicorn.Inspection

/-! The primary inspection pane: the windows of its two memory views and the cursors in them. A
`u32` operation that does not fit and an `expect` that fails end in a panic. -/

namespace Minemu.Tui

open Platform Minemu.Core Minemu.Unicorn

/-- What a panic is about. -/
inductive Panic where
  | subtraction
  | addition
  | multiplication
  | expect
deriving DecidableEq

def subtract (left right : Nat) : Except Panic Nat :=
  if right ≤ left then .ok (left - right) else .error .subtraction

def add32 (left right : Nat) : Except Panic Nat :=
  if left + right < 2 ^ 32 then .ok (left + right) else .error .addition

def multiply32 (left right : Nat) : Except Panic Nat :=
  if left * right < 2 ^ 32 then .ok (left * right) else .error .multiplication

def expect : Option α → Except Panic α
  | some value => .ok value
  | none => .error .expect

def saturatingAdd (bits left right : Nat) : Nat := min (left + right) (2 ^ bits - 1)

def saturatingMul (bits left right : Nat) : Nat := min (left * right) (2 ^ bits - 1)

inductive Motion where
  | left (count : Nat)
  | down (count : Nat)
  | up (count : Nat)
  | right (count : Nat)
  | nextItem (count : Nat)
  | endItem (count : Nat)
  | top
  | bottom

def Motion.count : Motion → Nat
  | left count | down count | up count | right count | nextItem count | endItem count => count
  | top | bottom => 1

inductive PrimarySubview where
  | physicalMemory
  | virtualMemory
  | disassembly
deriving DecidableEq

/-- The size of the pane. -/
structure Rect where
  width : U16
  height : U16

/-! ### The readable memory map -/

def memoryRegions : List MemRegion := [.bootRom, .systemRom, .ram]

def memoryMapSize : Nat := (memoryRegions.map fun region => region.size.toNat).sum

def memoryRegion (address : PhysicalAddress) : Option MemRegion :=
  memoryRegions.find? fun region => region.range.containsAddress address

/-- The loop of `memory_linear_offset` from some offset on. -/
def linearOffsetFrom (address : PhysicalAddress) : Nat → List MemRegion → Option Nat
  | _, [] => none
  | offset, region :: regions =>
    if region.range.containsAddress address then
      some (offset + (address.get.toNat - region.base.get.toNat))
    else linearOffsetFrom address (offset + region.size.toNat) regions

def memoryLinearOffset (address : PhysicalAddress) : Option Nat :=
  linearOffsetFrom address 0 memoryRegions

/-- The loop of `memory_address_at`; past the last region it stays at the end of RAM. -/
def addressFrom : Nat → List MemRegion → PhysicalAddress
  | _, [] => ⟨MemRegion.ram.base.get + MemRegion.ram.size - 1⟩
  | offset, region :: regions =>
    if offset < region.size.toNat then ⟨region.base.get + BitVec.ofNat 32 offset⟩
    else addressFrom (offset - region.size.toNat) regions

def memoryAddressAt (offset : Nat) : PhysicalAddress := addressFrom offset memoryRegions

/-! ### Goto addresses -/

def hexDigit (digit : Char) : Option Nat :=
  if '0' ≤ digit ∧ digit ≤ '9' then some (digit.toNat - '0'.toNat)
  else if 'a' ≤ digit ∧ digit ≤ 'f' then some (digit.toNat - 'a'.toNat + 10)
  else if 'A' ≤ digit ∧ digit ≤ 'F' then some (digit.toNat - 'A'.toNat + 10)
  else none

/-- `u32::from_str_radix` for radix 16, which takes a leading plus sign. -/
def fromHex (digits : List Char) : Option U32 :=
  let digits := if digits.head? = some '+' then digits.tail else digits
  if digits = [] then none
  else
    (digits.foldlM (fun value digit => do
      let next := value * 16 + (← hexDigit digit)
      if next < 2 ^ 32 then some next else none) 0).map (BitVec.ofNat 32)

def parseHexAddress (value : List Char) : Option U32 :=
  fromHex (if value.take 2 = ['0', 'x'] ∨ value.take 2 = ['0', 'X'] then value.drop 2 else value)

/-! ### The widget -/

structure PrimaryWidget where
  subview : PrimarySubview := .physicalMemory
  memoryRange : PhysicalRange := ⟨⟨ramBase⟩, 256, by decide, by decide⟩
  memory : List U8 := []
  memoryCursor : PhysicalAddress := ⟨ramBase⟩
  virtualStart : VirtualAddress := ⟨0⟩
  virtualMemory : List U8 := []
  virtualCursor : VirtualAddress := ⟨0⟩
  virtualInitialized : Bool := false
  memoryColumns : Nat := 8
  memoryWindow : Nat := 256
  memoryDirty : Bool := false
  virtualDirty : Bool := false
  execution : Option ExecutionInspection := none
  disassemblyAddress : Option VirtualAddress := none
  active : Bool := false

/-- A match of `search_memory`, which searches RAM. -/
structure SearchMatch where
  address : PhysicalAddress
  inRam : MemRegion.ram.range.containsAddress address = true

/-- The events that change the widget. -/
inductive PrimaryEvent where
  | liveMemory (range : PhysicalRange) (bytes : List U8)
  | virtualMemory (address : VirtualAddress) (bytes : List U8)
  | execution (inspection : ExecutionInspection)
  | searchMatch (found : SearchMatch)
  | viewChanged (view : View)
  | pulse
  | primarySelected (subview : PrimarySubview)
  | navigate (motion : Motion)
  | goto (value : List Char)
  | render (area : Rect)

namespace PrimaryWidget

/-- The start that `ensure_cursor_visible` wants before it goes back to the start of a row. -/
def wantedStart (columns base lastStart window cursor currentStart currentEnd : Nat)
    (sameRegion : Bool) : Except Panic Nat :=
  if sameRegion ∧ currentStart ≤ cursor ∧ cursor < currentEnd then
    return min currentStart lastStart
  else if cursor < currentStart ∨ !sameRegion then do
    let offset ← subtract cursor base
    let start ← subtract cursor (offset % columns)
    return min start lastStart
  else do
    let beyond ← subtract window columns
    return min (cursor - beyond) lastStart

def ensureCursorVisible (widget : PrimaryWidget) : Except Panic PrimaryWidget := do
  let region ← expect (memoryRegion widget.memoryCursor)
  let base := region.base.get.toNat
  let window := min widget.memoryWindow region.size.toNat
  let regionEnd ← add32 base region.size.toNat
  let lastStart ← subtract regionEnd window
  let cursor := widget.memoryCursor.get.toNat
  let currentStart := widget.memoryRange.start.get.toNat
  let currentEnd ← add32 currentStart widget.memoryRange.length.toNat
  let sameRegion := memoryRegion widget.memoryRange.start = some region
  let start ← wantedStart widget.memoryColumns base lastStart window cursor currentStart currentEnd
    sameRegion
  let offset ← subtract start base
  let start ← add32 base (offset / widget.memoryColumns * widget.memoryColumns)
  let memoryRange ← expect
    (PhysicalRange.new ⟨BitVec.ofNat 32 start⟩ (BitVec.ofNat 32 window)).toOption
  return { widget with memoryRange }

/-- The same for `ensure_virtual_cursor_visible`. -/
def wantedVirtualStart (columns lastStart window cursor currentStart : Nat) : Except Panic Nat :=
  if currentStart ≤ cursor ∧ cursor < currentStart + window then
    return min currentStart lastStart
  else if cursor < currentStart then do
    let start ← subtract cursor (cursor % columns)
    return min start lastStart
  else do
    let beyond ← subtract window columns
    return min (cursor - beyond) lastStart

def ensureVirtualCursorVisible (widget : PrimaryWidget) : Except Panic PrimaryWidget := do
  let window := widget.memoryWindow
  let lastStart ← subtract (2 ^ 32 - 1) (window - 1)
  let cursor := widget.virtualCursor.get.toNat
  let currentStart := widget.virtualStart.get.toNat
  let start ← wantedVirtualStart widget.memoryColumns lastStart window cursor currentStart
  let start := start / widget.memoryColumns * widget.memoryColumns
  return { widget with virtualStart := ⟨BitVec.ofNat 32 start⟩ }

def navPhysicalMemory (widget : PrimaryWidget) (motion : Motion) : Except Panic PrimaryWidget :=
  let count := motion.count
  let step := match motion with
    | .left _ | .right _ => 1
    | .up _ | .down _ => widget.memoryColumns
    | .nextItem _ | .endItem _ => 4
    | .top | .bottom => 0
  let current := (memoryLinearOffset widget.memoryCursor).getD 0
  let maximum := memoryMapSize - 1
  let linear := match motion with
    | .top => 0
    | .bottom => maximum
    | .left _ | .up _ => current - saturatingMul 64 step count
    | .endItem _ => current / 4 * 4 + 3
    | _ => saturatingAdd 64 current (saturatingMul 64 step count)
  { widget with memoryCursor := memoryAddressAt (min linear maximum) }.ensureCursorVisible

def navVirtualMemory (widget : PrimaryWidget) (motion : Motion) : Except Panic PrimaryWidget :=
  let count := motion.count % 2 ^ 32
  let step := match motion with
    | .left _ | .right _ => 1
    | .up _ | .down _ => widget.memoryColumns
    | .nextItem _ | .endItem _ => 4
    | .top | .bottom => 0
  let current := widget.virtualCursor.get.toNat
  let address := match motion with
    | .top => 0
    | .bottom => 2 ^ 32 - 1
    | .left _ | .up _ => current - saturatingMul 32 step count
    | .endItem _ => current / 4 * 4 + 3
    | _ => saturatingAdd 32 current (saturatingMul 32 step count)
  { widget with
    virtualInitialized := true
    virtualCursor := ⟨BitVec.ofNat 32 address⟩ }.ensureVirtualCursorVisible

/-- Here the product of step and count is not a saturating one. -/
def navDisassembly (widget : PrimaryWidget) (motion : Motion) : Except Panic PrimaryWidget := do
  let pc := widget.execution.map fun execution => (⟨execution.cpu.read .pc⟩ : VirtualAddress)
  let current := ((widget.disassemblyAddress.or pc).getD ⟨0⟩).get.toNat
  let count := motion.count % 2 ^ 32
  let step := match motion with
    | .up _ | .down _ | .nextItem _ | .endItem _ => 4
    | .left _ | .right _ => 1
    | .top | .bottom => 0
  let address ← match motion with
    | .top => pure 0
    | .bottom => pure (2 ^ 32 - 1 - 255)
    | .left _ | .up _ => (multiply32 step count).map (current - ·)
    | _ => (multiply32 step count).map (saturatingAdd 32 current ·)
  return { widget with disassemblyAddress := some ⟨BitVec.ofNat 32 address &&& ~~~3#32⟩ }

/-- An address that cannot be parsed or, in the physical view, is in no readable region is refused
with a message. -/
def goto (widget : PrimaryWidget) (value : List Char) : Except Panic PrimaryWidget :=
  match parseHexAddress value with
  | none => return widget
  | some address =>
    match widget.subview with
    | .physicalMemory =>
      if memoryRegion ⟨address⟩ = none then return widget
      else { widget with memoryCursor := ⟨address⟩ }.ensureCursorVisible
    | .virtualMemory =>
      { widget with virtualCursor := ⟨address⟩, virtualInitialized := true }.ensureVirtualCursorVisible
    | .disassembly => return { widget with disassemblyAddress := some ⟨address &&& ~~~3#32⟩ }

def initializeVirtualMemory (widget : PrimaryWidget) (pc : U32) : Except Panic PrimaryWidget :=
  { widget with virtualCursor := ⟨pc⟩, virtualInitialized := true }.ensureVirtualCursorVisible

/-- The columns and the bytes that fill a pane. -/
def geometry (area : Rect) : Nat × Nat :=
  let columns := if 46 ≤ area.width.toNat then 8 else 4
  let rows := max (area.height.toNat - 4) 1
  (columns, rows * columns)

def updateMemoryGeometry (widget : PrimaryWidget) (area : Rect) : Except Panic PrimaryWidget :=
  let (columns, window) := geometry area
  if widget.memoryColumns = columns ∧ widget.memoryWindow = window then return widget
  else do
    let widget ←
      { widget with memoryColumns := columns, memoryWindow := window }.ensureCursorVisible
    let widget ← widget.ensureVirtualCursorVisible
    return { widget with
      memory := []
      virtualMemory := []
      memoryDirty := true
      virtualDirty := true }

def update (widget : PrimaryWidget) : PrimaryEvent → Except Panic PrimaryWidget
  | .liveMemory range bytes =>
    if range = widget.memoryRange then return { widget with memory := bytes, memoryDirty := false }
    else return widget
  | .virtualMemory address bytes =>
    if address = widget.virtualStart ∧ bytes.length = widget.memoryWindow then
      return { widget with virtualMemory := bytes, virtualDirty := false }
    else return widget
  | .execution inspection =>
    let widget := { widget with execution := some inspection }
    if widget.subview = .virtualMemory ∧ widget.virtualInitialized = false then
      widget.initializeVirtualMemory (inspection.cpu.read .pc)
    else return widget
  | .searchMatch found => { widget with memoryCursor := found.address }.ensureCursorVisible
  | .viewChanged view => return { widget with active := view = .inspect }
  | .pulse =>
    if widget.active then
      match widget.subview with
      | .physicalMemory => return { widget with memoryDirty := false }
      | .virtualMemory => return { widget with virtualDirty := false }
      | .disassembly => return widget
    else return widget
  | .primarySelected subview =>
    let widget := { widget with subview }
    match widget.execution with
    | some execution =>
      if subview = .virtualMemory ∧ widget.virtualInitialized = false then
        widget.initializeVirtualMemory (execution.cpu.read .pc)
      else return widget
    | none => return widget
  | .navigate motion =>
    match widget.subview with
    | .physicalMemory => widget.navPhysicalMemory motion
    | .virtualMemory => widget.navVirtualMemory motion
    | .disassembly => widget.navDisassembly motion
  | .goto value => widget.goto value
  | .render area =>
    if widget.subview = .disassembly then return widget else widget.updateMemoryGeometry area

end PrimaryWidget

end Minemu.Tui

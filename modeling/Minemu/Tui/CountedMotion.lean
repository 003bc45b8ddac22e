import Minemu.Tui.CursorVisible
import Minemu.Tui.MotionDecoder

/-! Counted motions saturate. The physical view keeps the law for every count; the other two cut
the count to 32 bits, and the disassembly view multiplies it with a plain product. -/

namespace Minemu.Tui

open Library Platform Minemu.Core Minemu.Unicorn

/-! ### The memory map in order -/

/-- The addresses of a region all lie below those of the regions after it. -/
def Ascending (regions : List MemRegion) : Prop :=
  regions.Pairwise fun low high =>
    low.base.get.toNat + low.size.toNat ≤ high.base.get.toNat

theorem ascending_memoryRegions : Ascending memoryRegions := by
  rw [Ascending, memoryRegions, List.pairwise_cons, List.pairwise_cons]
  decide

section Map

variable {region : MemRegion} {regions : List MemRegion}

theorem region_at {offset : Nat} (readable : region ∈ memoryRegions)
    (inside : offset < region.size.toNat) :
    (region.base.get + BitVec.ofNat 32 offset).toNat = region.base.get.toNat + offset := by
  obtain ⟨_, _, _, fits⟩ := region_rows readable
  rw [BitVec.toNat_add, BitVec.toNat_ofNat, Nat.mod_eq_of_lt (by omega : offset < 2 ^ 32)]
  exact Nat.mod_eq_of_lt (by omega)

theorem addressFrom_above (readable : ∀ region ∈ regions, region ∈ memoryRegions) {offset : Nat}
    (inside : offset < (regions.map fun region => region.size.toNat).sum) {bound : Nat}
    (above : ∀ region ∈ regions, bound ≤ region.base.get.toNat) :
    bound ≤ (addressFrom offset regions).get.toNat := by
  induction regions generalizing offset with
  | nil => exact absurd inside (Nat.not_lt_zero _)
  | cons region regions ih =>
    rw [List.forall_mem_cons] at readable above
    rw [List.map_cons, List.sum_cons] at inside
    rw [addressFrom]
    split
    · rename_i here
      have placed := region_at readable.1 here
      exact placed ▸ above.1.trans (Nat.le_add_right _ _)
    · exact ih readable.2 (by omega) above.2

/-- A later byte of the map has a higher address. -/
theorem addressFrom_mono (ascending : Ascending regions)
    (readable : ∀ region ∈ regions, region ∈ memoryRegions) {low high : Nat} (order : low ≤ high)
    (inside : high < (regions.map fun region => region.size.toNat).sum) :
    (addressFrom low regions).get.toNat ≤ (addressFrom high regions).get.toNat := by
  induction regions generalizing low high with
  | nil => exact le_rfl
  | cons region regions ih =>
    rw [List.forall_mem_cons] at readable
    rw [List.map_cons, List.sum_cons] at inside
    rw [Ascending, List.pairwise_cons] at ascending
    rw [addressFrom, addressFrom]
    by_cases first : low < region.size.toNat
    · rw [if_pos first]
      have placed := region_at readable.1 first
      by_cases second : high < region.size.toNat
      · rw [if_pos second]
        have other := region_at readable.1 second
        exact placed ▸ other ▸ Nat.add_le_add_left order _
      · rw [if_neg second]
        apply addressFrom_above readable.2 (by omega)
        intro later member
        exact placed ▸ (Nat.add_lt_add_left first _).le.trans (ascending.1 later member)
    · rw [if_neg first, if_neg (by omega)]
      exact ih ascending.2 readable.2 (by omega) (by omega)

theorem exists_linearOffset {address : PhysicalAddress} (offset : Nat)
    (mapped : ∃ region ∈ regions, region.range.containsAddress address = true) :
    ∃ linear, linearOffsetFrom address offset regions = some linear := by
  induction regions generalizing offset with
  | nil =>
    obtain ⟨_, member, _⟩ := mapped
    cases member
  | cons region regions ih =>
    rw [linearOffsetFrom]
    by_cases here : region.range.containsAddress address = true
    · rw [if_pos here]
      exact ⟨_, rfl⟩
    · rw [if_neg here]
      obtain ⟨other, member, inside⟩ := mapped
      rcases List.mem_cons.mp member with rfl | later
      · exact absurd inside here
      · exact ih _ ⟨other, later, inside⟩

/-- The offset of an address leads back to it. -/
theorem addressFrom_linearOffset {address : PhysicalAddress} {offset linear : Nat}
    (readable : ∀ region ∈ regions, region ∈ memoryRegions)
    (found : linearOffsetFrom address offset regions = some linear) :
    offset ≤ linear ∧
      linear - offset < (regions.map fun region => region.size.toNat).sum ∧
      addressFrom (linear - offset) regions = address := by
  induction regions generalizing offset with
  | nil => cases found
  | cons region regions ih =>
    rw [List.forall_mem_cons] at readable
    rw [linearOffsetFrom] at found
    rw [List.map_cons, List.sum_cons, addressFrom]
    split at found
    · rename_i here
      cases found
      obtain ⟨low, high⟩ := PhysicalRange.containsAddress_iff.mp here
      have inside : address.get.toNat - region.base.get.toNat < region.size.toNat :=
        Nat.sub_lt_left_of_lt_add low high
      have placed := region_at readable.1 inside
      rw [Nat.add_sub_cancel_left, if_pos inside]
      refine ⟨Nat.le_add_right _ _, Nat.lt_add_right _ inside, ?_⟩
      congr 1
      apply BitVec.eq_of_toNat_eq
      exact placed.trans (Nat.add_sub_cancel' low)
    · obtain ⟨beyond, inside, placed⟩ := ih readable.2 found
      rw [if_neg (by omega), Nat.sub_sub, placed]
      exact ⟨by omega, by omega, rfl⟩

end Map

/-! ### One counted motion -/

namespace Counted

/-- The motions towards the start of the map. -/
def backward : Counted → Bool
  | left | up => true
  | down | right | nextItem | endItem => false

/-- The motions of which the direction is told, not an item. -/
def directed : Counted → Bool
  | left | up | down | right => true
  | nextItem | endItem => false

/-- The step in the memory views. -/
def step (columns : Nat) : Counted → Nat
  | left | right => 1
  | up | down => columns
  | nextItem | endItem => 4

/-- The step in the disassembly view. -/
def stride : Counted → Nat
  | left | right => 1
  | up | down | nextItem | endItem => 4

end Counted

namespace PrimaryWidget

variable (widget : PrimaryWidget)

/-- Where the disassembly view is: at its own address, else at the program counter, else at 0. -/
def disassemblyCursor : VirtualAddress :=
  (widget.disassemblyAddress.or (widget.execution.map fun execution =>
    (⟨execution.cpu.read .pc⟩ : VirtualAddress))).getD ⟨0⟩

/-- The address that the motions of the shown subview move. -/
def cursorAddress : Nat :=
  match widget.subview with
  | .physicalMemory => widget.memoryCursor.get.toNat
  | .virtualMemory => widget.virtualCursor.get.toNat
  | .disassembly => widget.disassemblyCursor.get.toNat

/-- The linear offset a counted motion goes to in the physical view. -/
def physicalTarget (kind : Counted) (count : Nat) : Nat :=
  let current := (memoryLinearOffset widget.memoryCursor).getD 0
  min (if kind = .endItem then current / 4 * 4 + 3
    else if kind.backward then current - saturatingMul 64 (kind.step widget.memoryColumns) count
    else saturatingAdd 64 current (saturatingMul 64 (kind.step widget.memoryColumns) count))
    (memoryMapSize - 1)

/-- The address it goes to in the virtual view. -/
def virtualTarget (kind : Counted) (count : Nat) : Nat :=
  let current := widget.virtualCursor.get.toNat
  let moved := saturatingMul 32 (kind.step widget.memoryColumns) (count % 2 ^ 32)
  if kind = .endItem then current / 4 * 4 + 3
  else if kind.backward then current - moved else saturatingAdd 32 current moved

/-- The address it goes to in the disassembly view, when the product fits. -/
def disassemblyTarget (kind : Counted) (moved : Nat) : Nat :=
  let current := widget.disassemblyCursor.get.toNat
  (if kind.backward then current - moved else saturatingAdd 32 current moved) / 4 * 4

variable {widget} in
theorem update_physical (shown : widget.subview = .physicalMemory) {motion : Motion} :
    widget.update (.navigate motion) = widget.navPhysicalMemory motion := by
  rw [update, shown]

variable {widget} in
theorem update_virtual (shown : widget.subview = .virtualMemory) {motion : Motion} :
    widget.update (.navigate motion) = widget.navVirtualMemory motion := by
  rw [update, shown]

variable {widget} in
theorem update_disassembly (shown : widget.subview = .disassembly) {motion : Motion} :
    widget.update (.navigate motion) = widget.navDisassembly motion := by
  rw [update, shown]

theorem navPhysicalMemory_counted (kind : Counted) (count : Nat) :
    widget.navPhysicalMemory (kind.motion count) =
      { widget with
        memoryCursor := memoryAddressAt (widget.physicalTarget kind count) }.ensureCursorVisible := by
  cases kind <;> rfl

theorem navVirtualMemory_counted (kind : Counted) (count : Nat) :
    widget.navVirtualMemory (kind.motion count) =
      { widget with
        virtualInitialized := true
        virtualCursor := ⟨BitVec.ofNat 32 (widget.virtualTarget kind count)⟩
        }.ensureVirtualCursorVisible := by
  cases kind <;> rfl

theorem toNat_aligned (address : U32) :
    (address &&& ~~~3#32).toNat = address.toNat / 4 * 4 := by
  have mask : (~~~3#32 : U32) = BitVec.allOnes 32 <<< 2 := by decide
  rw [mask]
  exact toNat_and_high address 2

theorem aligned_target (kind : Counted) (moved : Nat) :
    BitVec.ofNat 32 (if kind.backward then widget.disassemblyCursor.get.toNat - moved
      else saturatingAdd 32 widget.disassemblyCursor.get.toNat moved) &&& ~~~3#32 =
      BitVec.ofNat 32 (widget.disassemblyTarget kind moved) := by
  have small := widget.disassemblyCursor.get.isLt
  apply BitVec.eq_of_toNat_eq
  rw [toNat_aligned, BitVec.toNat_ofNat, BitVec.toNat_ofNat, disassemblyTarget, saturatingAdd]
  split
  · rw [Nat.mod_eq_of_lt (by omega), Nat.mod_eq_of_lt (by omega)]
  · rw [Nat.mod_eq_of_lt (by omega), Nat.mod_eq_of_lt (by omega)]

theorem navDisassembly_counted (kind : Counted) (count : Nat) :
    widget.navDisassembly (kind.motion count) =
      (multiply32 kind.stride (count % 2 ^ 32)).map fun moved =>
        { widget with
          disassemblyAddress := some ⟨BitVec.ofNat 32 (widget.disassemblyTarget kind moved)⟩ } := by
  have place : (fun moved => { widget with
      disassemblyAddress := some ⟨BitVec.ofNat 32 (widget.disassemblyTarget kind moved)⟩ }) =
      fun moved => { widget with
        disassemblyAddress := some ⟨BitVec.ofNat 32 (if kind.backward then
          widget.disassemblyCursor.get.toNat - moved
          else saturatingAdd 32 widget.disassemblyCursor.get.toNat moved) &&& ~~~3#32⟩ } := by
    funext moved
    rw [aligned_target]
  rw [place]
  have product (step : Nat) (place : Nat → Nat) (result : Nat → PrimaryWidget) :
      ((multiply32 step (count % 2 ^ 32)).map place >>= fun address => .ok (result address)) =
        (multiply32 step (count % 2 ^ 32)).map fun moved => result (place moved) := by
    cases multiply32 step (count % 2 ^ 32) <;> rfl
  cases kind <;> exact product _ _ _

end PrimaryWidget

/-! ### What every run keeps -/

namespace PrimaryWidget

variable {widget after : PrimaryWidget}

/-- The windows are framed and the physical cursor is in the readable map, visible or not. -/
structure Steady (widget : PrimaryWidget) : Prop where
  framed : widget.Framed
  readable : ∃ region, memoryRegion widget.memoryCursor = some region

theorem wantedStart_le {columns base lastStart window cursor currentStart currentEnd start : Nat}
    {sameRegion : Bool} (wanted : wantedStart columns base lastStart window cursor currentStart
      currentEnd sameRegion = .ok start) : start ≤ lastStart := by
  rw [wantedStart] at wanted
  split at wanted
  · cases wanted
    exact Nat.min_le_right _ _
  split at wanted
  · obtain ⟨_, _, wanted⟩ := bind_ok wanted
    obtain ⟨_, _, wanted⟩ := bind_ok wanted
    cases wanted
    exact Nat.min_le_right _ _
  · obtain ⟨_, _, wanted⟩ := bind_ok wanted
    cases wanted
    exact Nat.min_le_right _ _

theorem subtract_eq_ok {left right difference : Nat} (done : subtract left right = .ok difference) :
    right ≤ left ∧ difference = left - right := by
  rw [subtract] at done
  split at done
  · rename_i fits
    cases done
    exact ⟨fits, rfl⟩
  · cases done

theorem add32_eq_ok {left right sum : Nat} (done : add32 left right = .ok sum) :
    left + right < 2 ^ 32 ∧ sum = left + right := by
  rw [add32] at done
  split at done
  · rename_i fits
    cases done
    exact ⟨fits, rfl⟩
  · cases done

theorem expect_eq_ok {value : Option α} {item : α} (done : expect value = .ok item) :
    value = some item := by
  cases value with
  | none => cases done
  | some other =>
    cases done
    rfl

theorem expect_toOption {value : Except ε α} {item : α}
    (done : expect value.toOption = .ok item) : value = .ok item := by
  cases value with
  | error error => cases done
  | ok other =>
    cases done
    rfl

/-- Where the placement of the physical window does not panic, the window is framed: whatever the
window before it was. -/
theorem ensureCursorVisible_framed (done : widget.ensureCursorVisible = .ok after)
    (geometry : Geometry widget.memoryColumns widget.memoryWindow) :
    ∃ region range, memoryRegion widget.memoryCursor = some region ∧
      after = { widget with memoryRange := range } ∧
      region.range.containsRange range = true ∧
      range.length.toNat = min widget.memoryWindow region.size.toNat ∧
      widget.memoryColumns ∣ range.start.get.toNat := by
  rw [ensureCursorVisible] at done
  obtain ⟨region, found, done⟩ := bind_ok done
  obtain ⟨regionEnd, ends, done⟩ := bind_ok done
  obtain ⟨lastStart, last, done⟩ := bind_ok done
  obtain ⟨_, _, done⟩ := bind_ok done
  obtain ⟨start, wanted, done⟩ := bind_ok done
  obtain ⟨offset, above, done⟩ := bind_ok done
  obtain ⟨row, placed, done⟩ := bind_ok done
  obtain ⟨range, built, done⟩ := bind_ok done
  cases done
  have mapped := expect_eq_ok found
  obtain ⟨baseRows, _, _, fits⟩ := region_rows (memoryRegion_eq_some.mp mapped).1
  obtain ⟨_, rfl⟩ := add32_eq_ok ends
  obtain ⟨windowFits, rfl⟩ := subtract_eq_ok last
  obtain ⟨low, rfl⟩ := subtract_eq_ok above
  obtain ⟨small, rfl⟩ := add32_eq_ok placed
  have high := wantedStart_le wanted
  have back : (start - region.base.get.toNat) / widget.memoryColumns * widget.memoryColumns ≤
      start - region.base.get.toNat := Nat.div_mul_le_self _ _
  have taken := PhysicalRange.new_eq_ok.mp (expect_toOption built)
  have startAt : range.start.get.toNat = region.base.get.toNat +
      (start - region.base.get.toNat) / widget.memoryColumns * widget.memoryColumns := by
    rw [taken.1, BitVec.toNat_ofNat, Nat.mod_eq_of_lt small]
  have length : range.length.toNat = min widget.memoryWindow region.size.toNat := by
    rw [taken.2, BitVec.toNat_ofNat, Nat.mod_eq_of_lt]
    exact (Nat.min_le_right _ _).trans_lt (by omega)
  refine ⟨region, range, mapped, rfl, PhysicalRange.containsRange_iff.mpr ⟨?_, ?_⟩, length, ?_⟩
  · rw [startAt]
    exact Nat.le_add_right _ _
  · change range.start.get.toNat + range.length.toNat ≤
      region.base.get.toNat + region.size.toNat
    omega
  · rw [startAt]
    exact Nat.dvd_add (geometry.eight.1.trans baseRows) (Nat.dvd_mul_left _ _)

theorem steady_default : Steady {} := ⟨framed_default, .ram, by decide⟩

/-- What leaves windows and the physical cursor alone keeps the widget steady. -/
theorem Steady.same (steady : widget.Steady)
    (same : (after.memoryColumns, after.memoryWindow, after.memoryRange, after.memoryCursor,
      after.virtualStart) = (widget.memoryColumns, widget.memoryWindow, widget.memoryRange,
        widget.memoryCursor, widget.virtualStart)) : after.Steady := by
  simp only [Prod.mk.injEq] at same
  obtain ⟨columns, window, range, cursor, start⟩ := same
  constructor
  · constructor
    · rw [columns, window]
      exact steady.framed.geometry
    · rw [range, window]
      exact steady.framed.whole
    · rw [columns, range]
      exact steady.framed.rows
    · rw [columns, start]
      exact steady.framed.virtualRows
  · rw [cursor]
    exact steady.readable

theorem Steady.moved (steady : widget.Steady) {cursor : PhysicalAddress}
    (done : { widget with memoryCursor := cursor }.ensureCursorVisible = .ok after) :
    after.Steady := by
  obtain ⟨region, range, found, rfl, inside, length, rows⟩ :=
    ensureCursorVisible_framed done steady.framed.geometry
  exact ⟨⟨steady.framed.geometry, ⟨region, (memoryRegion_eq_some.mp found).1, inside, length⟩, rows,
    steady.framed.virtualRows⟩, region, found⟩

theorem Steady.movedVirtual (steady : widget.Steady) {cursor : VirtualAddress}
    (done : { widget with
      virtualCursor := cursor, virtualInitialized := true }.ensureVirtualCursorVisible = .ok after) :
    after.Steady := by
  obtain ⟨start, computed, rows, _, _⟩ := ensureVirtualCursorVisible_ok
    { widget with virtualCursor := cursor, virtualInitialized := true } steady.framed.geometry
  rw [computed] at done
  cases done
  exact ⟨⟨steady.framed.geometry, steady.framed.whole, steady.framed.rows, rows⟩, steady.readable⟩

theorem Steady.resized (steady : widget.Steady) {area : Rect}
    (done : widget.updateMemoryGeometry area = .ok after) : after.Steady := by
  rw [updateMemoryGeometry] at done
  dsimp only at done
  split at done
  · cases done
    exact steady
  · obtain ⟨placed, physical, done⟩ := bind_ok done
    obtain ⟨region, range, found, rfl, inside, length, rows⟩ :=
      ensureCursorVisible_framed physical (geometry_area area)
    obtain ⟨shown, virtual, done⟩ := bind_ok done
    obtain ⟨start, computed, virtualRows, _, _⟩ := ensureVirtualCursorVisible_ok
      { widget with
        memoryColumns := (geometry area).1
        memoryWindow := (geometry area).2
        memoryRange := range } (geometry_area area)
    rw [computed] at virtual
    cases virtual
    cases done
    exact ⟨⟨geometry_area area, ⟨region, (memoryRegion_eq_some.mp found).1, inside, length⟩, rows,
      virtualRows⟩, region, found⟩

theorem Steady.disassembled (steady : widget.Steady) {motion : Motion}
    (done : widget.navDisassembly motion = .ok after) : after.Steady := by
  have counted (kind : Counted) (count : Nat)
      (done : widget.navDisassembly (kind.motion count) = .ok after) : after.Steady := by
    rw [navDisassembly_counted] at done
    cases product : multiply32 kind.stride (count % 2 ^ 32) with
    | error panicked =>
      rw [product] at done
      cases done
    | ok moved =>
      rw [product] at done
      cases done
      exact steady.same rfl
  cases motion with
  | top | bottom =>
    cases done
    exact steady.same rfl
  | left count => exact counted .left count done
  | down count => exact counted .down count done
  | up count => exact counted .up count done
  | right count => exact counted .right count done
  | nextItem count => exact counted .nextItem count done
  | endItem count => exact counted .endItem count done

theorem Steady.gone (steady : widget.Steady) {value : List Char}
    (done : widget.goto value = .ok after) : after.Steady := by
  rw [goto] at done
  split at done
  · cases done
    exact steady
  split at done
  · split at done
    · cases done
      exact steady
    · exact steady.moved done
  · exact steady.movedVirtual done
  · cases done
    exact steady.same rfl

/-- Every event that does not panic keeps the widget steady. -/
theorem Steady.update (steady : widget.Steady) {event : PrimaryEvent}
    (done : widget.update event = .ok after) : after.Steady := by
  cases event with
  | liveMemory range bytes =>
    rw [PrimaryWidget.update] at done
    split at done
    · cases done
      exact steady.same rfl
    · cases done
      exact steady
  | virtualMemory address bytes =>
    rw [PrimaryWidget.update] at done
    split at done
    · cases done
      exact steady.same rfl
    · cases done
      exact steady
  | execution inspection =>
    have told : Steady { widget with execution := some inspection } := steady.same rfl
    rw [PrimaryWidget.update] at done
    dsimp only at done
    split at done
    · exact told.movedVirtual done
    · cases done
      exact told
  | searchMatch found => exact steady.moved done
  | viewChanged view =>
    cases done
    exact steady.same rfl
  | pulse =>
    rw [PrimaryWidget.update] at done
    split at done
    · split at done <;> cases done <;> exact steady.same rfl
    · cases done
      exact steady
  | primarySelected subview =>
    have told : Steady { widget with subview } := steady.same rfl
    rw [PrimaryWidget.update] at done
    dsimp only at done
    split at done
    · split at done
      · exact told.movedVirtual done
      · cases done
        exact told
    · cases done
      exact told
  | navigate motion =>
    rw [PrimaryWidget.update] at done
    split at done
    · exact steady.moved done
    · exact steady.movedVirtual done
    · exact steady.disassembled done
  | goto value => exact steady.gone done
  | render area =>
    rw [PrimaryWidget.update] at done
    split at done
    · cases done
      exact steady
    · exact steady.resized done

/-- The widget, where there still is one, is steady. -/
def Steadied (state : Except Panic PrimaryWidget) : Prop :=
  ∀ widget, state = .ok widget → widget.Steady

theorem steadied_step (state : Except Panic PrimaryWidget) (event : PrimaryEvent)
    (steadied : Steadied state) : Steadied (PrimaryPane.step state event) := by
  intro after done
  cases state with
  | error panicked => cases done
  | ok widget => exact (steadied widget rfl).update done

/-- Every widget that a run of events reaches is steady. -/
theorem steady_reached (events : List PrimaryEvent)
    (reached : run PrimaryPane.step PrimaryPane.start events = .ok widget) : widget.Steady := by
  have started : Steadied PrimaryPane.start := by
    intro widget first
    cases first
    exact steady_default
  have preserved (state : Except Panic PrimaryWidget) (event : PrimaryEvent) (_ : True)
      (steadied : Steadied state) : Steadied (PrimaryPane.step state event) :=
    steadied_step state event steadied
  exact run_invariant preserved _ events started (fun _ _ => trivial) widget reached

/-! ### The law -/

/-- One address is as far in a direction as another. -/
def AsFar (backward : Bool) (address other : Nat) : Prop :=
  if backward then address ≤ other else other ≤ address

/-- A counted motion does not panic, does not go against its direction, and goes as far as the same
motion with any smaller count. -/
def Saturates (widget : PrimaryWidget) (kind : Counted) (count : Nat) : Prop :=
  ∃ after, widget.update (.navigate (kind.motion count)) = .ok after ∧
    (kind.directed → AsFar kind.backward after.cursorAddress widget.cursorAddress) ∧
    ∀ smaller less, smaller ≤ count → MotionDecoder.Decodes (kind.motion smaller) →
      widget.update (.navigate (kind.motion smaller)) = .ok less →
      AsFar kind.backward after.cursorAddress less.cursorAddress

/-- What is left in the direction of the motion. -/
def room (kind : Counted) (address : Nat) : Nat :=
  if kind.backward then address else 2 ^ 32 - 1 - address

/-- The count fits in 32 bits, or what is left of it reaches the end of the map; in the disassembly
view the product of step and count fits as well, and rounding down to an instruction does not take
an unaligned program counter back. -/
def Room (widget : PrimaryWidget) (kind : Counted) (count : Nat) : Prop :=
  match widget.subview with
  | .physicalMemory => True
  | .virtualMemory =>
    kind = .endItem ∨ count < 2 ^ 32 ∨
      room kind widget.virtualCursor.get.toNat ≤ kind.step widget.memoryColumns * (count % 2 ^ 32)
  | .disassembly =>
    let current := widget.disassemblyCursor.get.toNat
    let moved := kind.stride * (count % 2 ^ 32)
    moved < 2 ^ 32 ∧ (count < 2 ^ 32 ∨ room kind current < moved + 4) ∧
      (kind.backward ∨ ¬kind.directed ∨ current % 4 = 0 ∨
        current / 4 * 4 + 4 ≤ min (current + moved) (2 ^ 32 - 1))

/-- A motion whose target is known meets the law when the targets do. -/
theorem saturates_iff {kind : Counted} {count : Nat} {target : Nat → Nat}
    {lands : Nat → Prop}
    (landed : ∀ count after, widget.update (.navigate (kind.motion count)) = .ok after →
      after.cursorAddress = target count)
    (panics : ∀ count, (∃ after, widget.update (.navigate (kind.motion count)) = .ok after) ↔
      lands count) :
    widget.Saturates kind count ↔ lands count ∧
      (kind.directed → AsFar kind.backward (target count) widget.cursorAddress) ∧
      ∀ smaller, 1 ≤ smaller → smaller ≤ count → smaller < 2 ^ 64 → lands smaller →
        AsFar kind.backward (target count) (target smaller) := by
  constructor
  · intro described
    obtain ⟨after, done, directed, farther⟩ := described
    rw [← landed count after done]
    refine ⟨(panics count).mp ⟨after, done⟩, directed, ?_⟩
    intro smaller positive less fits lands
    obtain ⟨other, moved⟩ := (panics smaller).mpr lands
    rw [← landed smaller other moved]
    exact farther smaller other less ((MotionDecoder.decodes_counted _ _).mpr ⟨positive, fits⟩) moved
  · intro described
    obtain ⟨lands, directed, farther⟩ := described
    obtain ⟨after, done⟩ := (panics count).mpr lands
    refine ⟨after, done, ?_, ?_⟩
    · rw [landed count after done]
      exact directed
    · intro smaller other less decodes moved
      obtain ⟨positive, fits⟩ := (MotionDecoder.decodes_counted _ _).mp decodes
      rw [landed count after done, landed smaller other moved]
      exact farther smaller positive less fits ((panics smaller).mp ⟨other, moved⟩)

variable {kind : Counted} {count : Nat}

/-! ### The physical view -/

theorem physicalTarget_lt : widget.physicalTarget kind count < memoryMapSize :=
  (Nat.min_le_right _ _).trans_lt (by decide)

theorem asFar_addressAt {backward : Bool} {offset other : Nat} (inside : offset < memoryMapSize)
    (otherInside : other < memoryMapSize) (far : AsFar backward offset other) :
    AsFar backward (memoryAddressAt offset).get.toNat (memoryAddressAt other).get.toNat := by
  rw [AsFar] at far ⊢
  split
  · rename_i back
    rw [if_pos back] at far
    exact addressFrom_mono ascending_memoryRegions (fun _ member => member) far otherInside
  · rename_i forward
    rw [if_neg forward] at far
    exact addressFrom_mono ascending_memoryRegions (fun _ member => member) far inside

/-- In the physical view a larger count goes as far, from the current offset on. -/
theorem asFar_physicalTarget {smaller : Nat} (less : smaller ≤ count) :
    AsFar kind.backward (widget.physicalTarget kind count)
      (widget.physicalTarget kind smaller) := by
  have product := Nat.mul_le_mul_left (kind.step widget.memoryColumns) less
  rw [AsFar, physicalTarget, physicalTarget]
  simp only [saturatingAdd, saturatingMul]
  cases kind <;> simp [Counted.backward] <;> omega

theorem asFar_current {linear : Nat} (current : memoryLinearOffset widget.memoryCursor = some linear)
    (inside : linear < memoryMapSize) (directed : kind.directed) :
    AsFar kind.backward (widget.physicalTarget kind count) linear := by
  have whole : memoryMapSize < 2 ^ 63 := by decide
  rw [AsFar, physicalTarget, current, Option.getD_some]
  simp only [saturatingAdd, saturatingMul]
  cases kind <;> simp [Counted.backward, Counted.directed] at directed ⊢ <;> omega

theorem Steady.exists_current (steady : widget.Steady) :
    ∃ linear, memoryLinearOffset widget.memoryCursor = some linear ∧ linear < memoryMapSize ∧
      memoryAddressAt linear = widget.memoryCursor := by
  obtain ⟨region, found⟩ := steady.readable
  obtain ⟨linear, current⟩ := exists_linearOffset 0 ⟨region, memoryRegion_eq_some.mp found⟩
  obtain ⟨_, inside, placed⟩ := addressFrom_linearOffset (fun _ member => member) current
  exact ⟨linear, current, inside, placed⟩

/-- The physical view keeps the law for every count. -/
theorem Steady.saturates_physical (steady : widget.Steady)
    (shown : widget.subview = .physicalMemory) : widget.Saturates kind count := by
  have moves (kind : Counted) (count : Nat) : ∃ range,
      widget.update (.navigate (kind.motion count)) = .ok { widget with
        memoryCursor := memoryAddressAt (widget.physicalTarget kind count), memoryRange := range } := by
    obtain ⟨region, found⟩ := readable_addressFrom (widget.physicalTarget kind count)
      (fun _ member => member : ∀ region ∈ memoryRegions, region ∈ memoryRegions)
    obtain ⟨held, heldReadable, inHeld, length⟩ := steady.framed.whole
    obtain ⟨range, computed, _⟩ := ensureCursorVisible_ok
      { widget with memoryCursor := memoryAddressAt (widget.physicalTarget kind count) }
      steady.framed.geometry found heldReadable inHeld (.inr length)
    refine ⟨range, (update_physical shown).trans ?_⟩
    exact (widget.navPhysicalMemory_counted kind count).trans computed
  have landed (count : Nat) (after : PrimaryWidget)
      (done : widget.update (.navigate (kind.motion count)) = .ok after) :
      after.cursorAddress = (memoryAddressAt (widget.physicalTarget kind count)).get.toNat := by
    obtain ⟨range, moved⟩ := moves kind count
    rw [moved] at done
    cases done
    rw [cursorAddress, shown]
  obtain ⟨linear, current, inside, placed⟩ := steady.exists_current
  have panics (count : Nat) :
      (∃ after, widget.update (.navigate (kind.motion count)) = .ok after) ↔ True := by
    obtain ⟨range, moved⟩ := moves kind count
    exact iff_of_true ⟨_, moved⟩ trivial
  rw [saturates_iff landed panics]
  refine ⟨trivial, fun directed => ?_, fun smaller _ less _ _ => ?_⟩
  · rw [cursorAddress, shown]
    dsimp only
    rw [← placed]
    exact asFar_addressAt physicalTarget_lt inside (asFar_current current inside directed)
  · exact asFar_addressAt physicalTarget_lt physicalTarget_lt (asFar_physicalTarget less)

/-! ### The virtual view -/

theorem virtualTarget_lt : widget.virtualTarget kind count < 2 ^ 32 := by
  have small := widget.virtualCursor.get.isLt
  rw [virtualTarget]
  simp only [saturatingAdd]
  split
  · omega
  split <;> omega

theorem Steady.step_pos (steady : widget.Steady) (kind : Counted) : 1 ≤ kind.step widget.memoryColumns := by
  have columns := steady.framed.geometry.eight.2.1
  cases kind
  · exact le_rfl
  · exact columns
  · exact columns
  · exact le_rfl
  · exact Nat.le_add_left 1 3
  · exact Nat.le_add_left 1 3

theorem virtualTarget_directed (directed : kind.directed) :
    AsFar kind.backward (widget.virtualTarget kind count) widget.virtualCursor.get.toNat := by
  have small := widget.virtualCursor.get.isLt
  rw [AsFar, virtualTarget]
  simp only [saturatingAdd, saturatingMul]
  cases kind <;> simp [Counted.backward, Counted.directed] at directed ⊢ <;> omega

/-- In the virtual view the motion comes to the end of the map as soon as the product of step and
count does. -/
theorem virtualTarget_mono {smaller : Nat} (less : kind.step widget.memoryColumns * (smaller % 2 ^ 32) ≤
      kind.step widget.memoryColumns * (count % 2 ^ 32) ∨
        room kind widget.virtualCursor.get.toNat ≤
          kind.step widget.memoryColumns * (count % 2 ^ 32)) :
    AsFar kind.backward (widget.virtualTarget kind count) (widget.virtualTarget kind smaller) := by
  have small := widget.virtualCursor.get.isLt
  rw [AsFar, virtualTarget, virtualTarget]
  rw [room] at less
  simp only [saturatingAdd, saturatingMul]
  cases kind <;> simp [Counted.backward] at less ⊢ <;> omega

/-- A count that is as large as the address space brings the cursor to the end of the map. -/
theorem Steady.virtualTarget_far (steady : widget.Steady) (counts : kind ≠ .endItem)
    (far : AsFar kind.backward (widget.virtualTarget kind count)
      (widget.virtualTarget kind (2 ^ 32 - 1))) :
    room kind widget.virtualCursor.get.toNat ≤ kind.step widget.memoryColumns * (count % 2 ^ 32) := by
  have small := widget.virtualCursor.get.isLt
  have whole := Nat.mul_le_mul_right (2 ^ 32 - 1) (steady.step_pos kind)
  rw [Nat.one_mul] at whole
  rw [AsFar, virtualTarget, virtualTarget, Nat.mod_eq_of_lt (by decide : 2 ^ 32 - 1 < 2 ^ 32)] at far
  rw [room]
  simp only [saturatingAdd, saturatingMul] at far
  generalize kind.step widget.memoryColumns * (count % 2 ^ 32) = moved at far ⊢
  generalize kind.step widget.memoryColumns * (2 ^ 32 - 1) = reached at far whole
  cases kind <;> simp [Counted.backward] at far counts ⊢ <;> omega

theorem Steady.saturates_virtual (steady : widget.Steady) (shown : widget.subview = .virtualMemory)
    (fits : count < 2 ^ 64) : widget.Saturates kind count ↔ widget.Room kind count := by
  have moves (kind : Counted) (count : Nat) : ∃ start,
      widget.update (.navigate (kind.motion count)) = .ok { widget with
        virtualInitialized := true
        virtualCursor := ⟨BitVec.ofNat 32 (widget.virtualTarget kind count)⟩
        virtualStart := start } := by
    obtain ⟨start, computed, _⟩ := ensureVirtualCursorVisible_ok
      { widget with
        virtualInitialized := true
        virtualCursor := ⟨BitVec.ofNat 32 (widget.virtualTarget kind count)⟩ } steady.framed.geometry
    refine ⟨start, (update_virtual shown).trans ?_⟩
    exact (widget.navVirtualMemory_counted kind count).trans computed
  have landed (count : Nat) (after : PrimaryWidget)
      (done : widget.update (.navigate (kind.motion count)) = .ok after) :
      after.cursorAddress = widget.virtualTarget kind count := by
    obtain ⟨start, moved⟩ := moves kind count
    rw [moved] at done
    cases done
    rw [cursorAddress, shown]
    exact (BitVec.toNat_ofNat _ _).trans (Nat.mod_eq_of_lt virtualTarget_lt)
  have panics (count : Nat) :
      (∃ after, widget.update (.navigate (kind.motion count)) = .ok after) ↔ True := by
    obtain ⟨start, moved⟩ := moves kind count
    exact iff_of_true ⟨_, moved⟩ trivial
  rw [saturates_iff landed panics, Room, cursorAddress, shown]
  dsimp only
  constructor
  · intro described
    obtain ⟨_, _, farther⟩ := described
    by_cases item : kind = .endItem
    · exact .inl item
    by_cases narrow : count < 2 ^ 32
    · exact .inr (.inl narrow)
    · have far := farther (2 ^ 32 - 1) (by decide) (by omega) (by decide) trivial
      exact .inr (.inr (steady.virtualTarget_far item far))
  · intro enough
    refine ⟨trivial, fun directed => virtualTarget_directed directed, ?_⟩
    intro smaller _ less _ _
    rcases enough with rfl | narrow | reached
    · exact le_rfl
    · apply virtualTarget_mono (.inl _)
      rw [Nat.mod_eq_of_lt narrow, Nat.mod_eq_of_lt (less.trans_lt narrow)]
      exact Nat.mul_le_mul_left _ less
    · exact virtualTarget_mono (.inr reached)

/-! ### The disassembly view -/

variable {moved : Nat}

theorem disassemblyTarget_lt : widget.disassemblyTarget kind moved < 2 ^ 32 := by
  have small := widget.disassemblyCursor.get.isLt
  rw [disassemblyTarget]
  simp only [saturatingAdd]
  split <;> omega

/-- A motion forward goes back exactly when it does not get to the next instruction and the
program counter is not at the start of one. -/
theorem disassemblyTarget_directed :
    AsFar kind.backward (widget.disassemblyTarget kind moved) widget.disassemblyCursor.get.toNat ↔
      kind.backward ∨ widget.disassemblyCursor.get.toNat % 4 = 0 ∨
        widget.disassemblyCursor.get.toNat / 4 * 4 + 4 ≤
          min (widget.disassemblyCursor.get.toNat + moved) (2 ^ 32 - 1) := by
  have small := widget.disassemblyCursor.get.isLt
  rw [AsFar, disassemblyTarget]
  simp only [saturatingAdd]
  cases kind.backward
  · simp only [Bool.false_eq_true, if_false, false_or]
    omega
  · simp only [if_true, true_or, iff_true]
    omega

theorem disassemblyTarget_mono {less : Nat} (enough : less ≤ moved ∨
    room kind widget.disassemblyCursor.get.toNat < moved + 4) :
    AsFar kind.backward (widget.disassemblyTarget kind moved)
      (widget.disassemblyTarget kind less) := by
  have small := widget.disassemblyCursor.get.isLt
  rw [AsFar, disassemblyTarget, disassemblyTarget]
  rw [room] at enough
  simp only [saturatingAdd]
  cases back : kind.backward
  · simp only [back, Bool.false_eq_true, if_false] at enough ⊢
    omega
  · simp only [back, if_true] at enough ⊢
    omega

theorem disassemblyTarget_far {whole : Nat} (large : 2 ^ 32 - 4 ≤ whole)
    (far : AsFar kind.backward (widget.disassemblyTarget kind moved)
      (widget.disassemblyTarget kind whole)) :
    room kind widget.disassemblyCursor.get.toNat < moved + 4 := by
  have small := widget.disassemblyCursor.get.isLt
  rw [AsFar, disassemblyTarget, disassemblyTarget] at far
  rw [room]
  simp only [saturatingAdd] at far
  cases back : kind.backward
  · simp only [back, Bool.false_eq_true, if_false] at far ⊢
    omega
  · simp only [back, if_true] at far ⊢
    omega

/-- Some count that fits in 32 bits goes as far as an address space allows without a panic. -/
theorem exists_whole (kind : Counted) : ∃ whole, 1 ≤ whole ∧ whole < 2 ^ 32 ∧
    2 ^ 32 - 4 ≤ kind.stride * whole ∧ kind.stride * whole < 2 ^ 32 := by
  cases kind with
  | left | right => exact ⟨2 ^ 32 - 1, by decide⟩
  | up | down | nextItem | endItem => exact ⟨2 ^ 30 - 1, by decide⟩

theorem saturates_disassembly (shown : widget.subview = .disassembly) (fits : count < 2 ^ 64) :
    widget.Saturates kind count ↔ widget.Room kind count := by
  have moves (count : Nat) (after : PrimaryWidget) :
      widget.update (.navigate (kind.motion count)) = .ok after ↔
        kind.stride * (count % 2 ^ 32) < 2 ^ 32 ∧ after = { widget with
          disassemblyAddress := some ⟨BitVec.ofNat 32
            (widget.disassemblyTarget kind (kind.stride * (count % 2 ^ 32)))⟩ } := by
    rw [update_disassembly shown, navDisassembly_counted, multiply32]
    split
    · rename_i inside
      constructor
      · intro done
        cases done
        exact ⟨inside, rfl⟩
      · intro both
        rw [both.2]
        rfl
    · rename_i overflows
      constructor
      · intro done
        cases done
      · intro both
        exact absurd both.1 overflows
  have landed (count : Nat) (after : PrimaryWidget)
      (done : widget.update (.navigate (kind.motion count)) = .ok after) :
      after.cursorAddress = widget.disassemblyTarget kind (kind.stride * (count % 2 ^ 32)) := by
    rw [((moves count after).mp done).2, cursorAddress, shown]
    exact (BitVec.toNat_ofNat _ _).trans (Nat.mod_eq_of_lt disassemblyTarget_lt)
  have panics (count : Nat) :
      (∃ after, widget.update (.navigate (kind.motion count)) = .ok after) ↔
        kind.stride * (count % 2 ^ 32) < 2 ^ 32 := by
    simp only [moves, exists_and_left, exists_eq, and_true]
  rw [saturates_iff landed panics, Room, cursorAddress, shown]
  dsimp only
  rw [disassemblyTarget_directed]
  constructor
  · intro described
    obtain ⟨inside, directed, farther⟩ := described
    refine ⟨inside, ?_, ?_⟩
    · by_cases narrow : count < 2 ^ 32
      · exact .inl narrow
      · obtain ⟨whole, positive, small, large, product⟩ := exists_whole kind
        have cut : whole % 2 ^ 32 = whole := Nat.mod_eq_of_lt small
        have far := farther whole positive (by omega) (by omega) (by rwa [cut])
        rw [cut] at far
        exact .inr (disassemblyTarget_far large far)
    · by_cases told : kind.directed = true
      · exact (directed told).imp id fun ahead => .inr ahead
      · exact .inr (.inl told)
  · intro described
    obtain ⟨inside, enough, ahead⟩ := described
    refine ⟨inside, ?_, ?_⟩
    · intro told
      rcases ahead with back | untold | ahead
      · exact .inl back
      · exact absurd told untold
      · exact .inr ahead
    · intro smaller _ less _ _
      apply disassemblyTarget_mono
      apply enough.imp _ id
      intro narrow
      rw [Nat.mod_eq_of_lt narrow, Nat.mod_eq_of_lt (less.trans_lt narrow)]
      exact Nat.mul_le_mul_left _ less

end PrimaryWidget

namespace PrimaryPane

open PrimaryWidget

/-- In every widget that events reach, a count that the decoder can produce saturates exactly where
it has the room. -/
theorem counted_navigation_iff (events : List PrimaryEvent) (widget : PrimaryWidget)
    (reached : run step start events = .ok widget) (kind : Counted) (count : Nat)
    (decodes : MotionDecoder.Decodes (kind.motion count)) :
    widget.Saturates kind count ↔ widget.Room kind count := by
  have steady := steady_reached events reached
  have fits := ((MotionDecoder.decodes_counted kind count).mp decodes).2
  cases shown : widget.subview with
  | physicalMemory =>
    apply iff_of_true (steady.saturates_physical shown)
    rw [Room, shown]
    trivial
  | virtualMemory => exact steady.saturates_virtual shown fits
  | disassembly => exact saturates_disassembly shown fits

/-- In the disassembly view, up by two thousand instructions after going down by five. -/
theorem counted_navigation_up :
    ∃ widget, run step start [.primarySelected .disassembly, .navigate (.down 5)] = .ok widget ∧
      widget.Saturates .up 2000 := by
  refine ⟨_, rfl, ?_⟩
  exact (counted_navigation_iff [.primarySelected .disassembly, .navigate (.down 5)] _ rfl .up 2000
    ((MotionDecoder.decodes_counted _ _).mpr (by decide))).mpr
    ⟨by decide, .inl (by decide), .inl rfl⟩

/-- Down by 2^30 instructions: the product of step and count has 33 bits. -/
theorem counted_navigation_overflows :
    ¬∀ (events : List PrimaryEvent) (widget : PrimaryWidget), run step start events = .ok widget →
      ∀ (kind : Counted) (count : Nat), MotionDecoder.Decodes (kind.motion count) →
        widget.Saturates kind count := by
  intro saturates
  obtain ⟨after, done, _⟩ := saturates [.primarySelected .disassembly] _ rfl .down (2 ^ 30)
    ((MotionDecoder.decodes_counted _ _).mpr (by decide))
  cases done

end PrimaryPane

end Minemu.Tui

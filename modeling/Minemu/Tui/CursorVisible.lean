import Minemu.Library.Runs
import Minemu.Library.Viewport
import Minemu.Tui.Primary

/-! Is the cursor of a memory view visible? Motions, gotos and matches move the window with the
cursor; a resize of the pane moves it back to the start of a row and may cut the cursor off. -/

namespace Minemu.Tui

open Library Platform Minemu.Core Minemu.Unicorn

/-! ### Arithmetic that does not panic -/

theorem subtract_ok {left right : Nat} (fits : right ≤ left) :
    subtract left right = .ok (left - right) := if_pos fits

theorem add32_ok {left right : Nat} (fits : left + right < 2 ^ 32) :
    add32 left right = .ok (left + right) := if_pos fits

theorem expect_new {start : PhysicalAddress} {length : U32} (nonempty : 0 < length.toNat)
    (fits : start.get.toNat + length.toNat ≤ 2 ^ 32) :
    ∃ range, expect (PhysicalRange.new start length).toOption = .ok range ∧ range.start = start ∧
      range.length = length := by
  obtain ⟨range, built⟩ := PhysicalRange.exists_new.mpr ⟨nonempty, fits⟩
  rw [built]
  exact ⟨range, rfl, PhysicalRange.new_eq_ok.mp built⟩

/-! ### The readable regions -/

theorem memoryRegion_eq_some {address : PhysicalAddress} {region : MemRegion} :
    memoryRegion address = some region ↔
      region ∈ memoryRegions ∧ region.range.containsAddress address = true := by
  constructor
  · intro found
    exact ⟨List.mem_of_find?_eq_some found, by simpa using List.find?_some found⟩
  · intro ⟨readable, inside⟩
    cases found : memoryRegion address with
    | none => exact absurd inside (List.find?_eq_none.mp found region readable)
    | some other =>
      have taken : other.range.containsAddress address = true := by
        simpa using List.find?_some found
      rw [← MemRegion.ofAddress_eq_some] at taken inside
      exact taken.symm.trans inside

/-- Every readable region consists of whole rows and lies below the end of the address space. -/
theorem region_rows {region : MemRegion} (readable : region ∈ memoryRegions) :
    8 ∣ region.base.get.toNat ∧ 8 ∣ region.size.toNat ∧ 8 ≤ region.size.toNat ∧
      region.base.get.toNat + region.size.toNat < 2 ^ 32 := by
  simp only [memoryRegions, List.mem_cons, List.not_mem_nil, or_false] at readable
  rcases readable with rfl | rfl | rfl
  · decide
  · decide
  · decide

theorem readable_addressFrom (offset : Nat) {regions : List MemRegion}
    (readable : ∀ region ∈ regions, region ∈ memoryRegions) :
    ∃ region, memoryRegion (addressFrom offset regions) = some region := by
  induction regions generalizing offset with
  | nil =>
    have last : MemRegion.ram.range.containsAddress
        ⟨MemRegion.ram.base.get + MemRegion.ram.size - 1⟩ = true := by decide
    exact ⟨.ram, memoryRegion_eq_some.mpr ⟨by decide, last⟩⟩
  | cons region regions ih =>
    rw [List.forall_mem_cons] at readable
    rw [addressFrom]
    split
    · rename_i inside
      refine ⟨region, memoryRegion_eq_some.mpr ⟨readable.1, ?_⟩⟩
      obtain ⟨_, _, _, fits⟩ := region_rows readable.1
      have small : offset < 2 ^ 32 := by omega
      have sum : (region.base.get + BitVec.ofNat 32 offset).toNat =
          region.base.get.toNat + offset := by
        rw [BitVec.toNat_add, BitVec.toNat_ofNat, Nat.mod_eq_of_lt small]
        exact Nat.mod_eq_of_lt (by omega)
      rw [PhysicalRange.containsAddress_iff, PhysicalRange.endExclusive, sum]
      exact ⟨Nat.le_add_right _ _, Nat.add_lt_add_left inside _⟩
    · exact ih _ readable.2

/-! ### Search matches -/

section SearchMatch

variable {inspector : Inspector} {backend : UnicornBackend} {pattern : List U8}
  {address : PhysicalAddress}

theorem position_lt {bytes : List U8} {index : Nat} (nonempty : pattern ≠ [])
    (found : UnicornBackend.position bytes pattern = some index) : index < bytes.length := by
  have within := List.mem_range.mp (List.mem_of_find?_eq_some found)
  have positive := List.length_pos_of_ne_nil nonempty
  omega

theorem searchChunks_inRam
    (fills : ∀ machine start length bytes,
      (inspector.memRead machine start length).2 = .ok bytes → bytes.length = length)
    (nonempty : pattern ≠ []) {offsets : List Nat}
    (early : ∀ offset ∈ offsets, offset < ramSize.toNat)
    (found : (backend.searchChunks inspector pattern offsets).1 = .ok (some address)) :
    MemRegion.ram.range.containsAddress address = true := by
  induction offsets generalizing backend with
  | nil => cases found
  | cons offset offsets ih =>
    rw [List.forall_mem_cons] at early
    rw [UnicornBackend.searchChunks] at found
    dsimp only at found
    split at found
    · cases found
    · rename_i bytes after read
      split at found
      · rename_i index matched
        cases found
        have filled := fills _ _ _ _ (mapError_ok (congrArg Prod.fst read))
        have inside := position_lt nonempty matched
        have size : ramSize.toNat = 0x0400_0000 := rfl
        have base : ramBase.toNat = 0x4000_0000 := rfl
        rw [filled] at inside
        rw [MemRegion.ram_contains, BitVec.toNat_add, BitVec.toNat_add, BitVec.toNat_ofNat,
          BitVec.toNat_ofNat, base]
        omega
      · exact ih early.2 found

/-- Where `mem_read` fills the buffer it is given, a search finds addresses in RAM only. -/
theorem exists_searchMatch
    (fills : ∀ machine start length bytes,
      (inspector.memRead machine start length).2 = .ok bytes → bytes.length = length)
    (found : (backend.searchMemory inspector pattern).1 = .ok (some address)) :
    ∃ found : SearchMatch, found.address = address := by
  rw [UnicornBackend.searchMemory] at found
  split at found
  · cases found
  · rename_i nonempty
    split at found
    · cases found
    · refine ⟨⟨address, searchChunks_inRam fills ?_ ?_ found⟩, rfl⟩
      · intro empty
        exact nonempty (List.isEmpty_iff.mpr empty)
      · intro offset member
        obtain ⟨index, few, rfl⟩ := List.mem_map.mp member
        rw [List.mem_range] at few
        exact (Nat.mul_lt_mul_of_pos_right few (by decide)).trans_le (by decide)

end SearchMatch

/-! ### The window as a viewport -/

/-- Four or eight columns, and some rows of them. -/
structure Geometry (columns window : Nat) : Prop where
  width : columns = 4 ∨ columns = 8
  height : ∃ rows, 0 < rows ∧ rows < 2 ^ 16 ∧ window = rows * columns

namespace Geometry

variable {columns window : Nat} (geometry : Geometry columns window)

include geometry in
theorem eight : columns ∣ 8 ∧ 0 < columns ∧ columns ≤ 8 := by
  rcases geometry.width with rfl | rfl
  · decide
  · decide

include geometry in
theorem window_rows : columns ∣ window ∧ columns ≤ window ∧ window < 2 ^ 20 := by
  obtain ⟨rows, some, few, rfl⟩ := geometry.height
  have narrow := geometry.eight.2.2
  refine ⟨Nat.dvd_mul_left _ _, Nat.le_mul_of_pos_left _ some, ?_⟩
  have wide := Nat.mul_le_mul few.le narrow
  omega

/-- A readable region through the window. -/
def physical (geometry : Geometry columns window) {region : MemRegion}
    (readable : region ∈ memoryRegions) : Viewport where
  base := region.base.get.toNat
  size := region.size.toNat
  columns
  window := min window region.size.toNat
  positive := geometry.eight.2.1
  base_rows := geometry.eight.1.trans (region_rows readable).1
  size_rows := geometry.eight.1.trans (region_rows readable).2.1
  window_rows := by
    rcases Nat.le_total window region.size.toNat with small | large
    · rw [Nat.min_eq_left small]
      exact geometry.window_rows.1
    · rw [Nat.min_eq_right large]
      exact geometry.eight.1.trans (region_rows readable).2.1
  row_fits := Nat.le_min.mpr
    ⟨geometry.window_rows.2.1, geometry.eight.2.2.trans (region_rows readable).2.2.1⟩
  window_fits := Nat.min_le_right _ _

/-- The address space through the window. -/
def virtual (geometry : Geometry columns window) : Viewport where
  base := 0
  size := 2 ^ 32
  columns
  window
  positive := geometry.eight.2.1
  base_rows := Nat.dvd_zero _
  size_rows := geometry.eight.1.trans ⟨2 ^ 29, rfl⟩
  window_rows := geometry.window_rows.1
  row_fits := geometry.window_rows.2.1
  window_fits := by
    have small := geometry.window_rows.2.2
    omega

end Geometry

/-! ### Where the windows go -/

section Wanted

variable {viewport : Viewport} {cursor currentStart currentEnd : Nat} {sameRegion : Bool}

/-- The wanted start is the current one as long as the cursor is in the current window, and else
one that shows the cursor. -/
theorem wantedStart_ok (after : viewport.base ≤ cursor)
    (inside : cursor < viewport.base + viewport.size)
    (held : sameRegion = true → viewport.base ≤ currentStart)
    (below : sameRegion = true → currentStart ≤ cursor → currentEnd ≤ cursor →
      viewport.base + (viewport.window - viewport.columns) ≤ cursor) :
    ∃ wanted, PrimaryWidget.wantedStart viewport.columns viewport.base viewport.lastStart
        viewport.window cursor currentStart currentEnd sameRegion =
          .ok (min wanted viewport.lastStart) ∧ viewport.base ≤ wanted ∧
      (sameRegion = true ∧ currentStart ≤ cursor ∧ cursor < currentEnd → wanted = currentStart) ∧
      (¬(sameRegion = true ∧ currentStart ≤ cursor ∧ cursor < currentEnd) →
        viewport.Shows (viewport.place wanted) cursor) := by
  rw [PrimaryWidget.wantedStart]
  by_cases current : sameRegion = true ∧ currentStart ≤ cursor ∧ cursor < currentEnd
  · rw [if_pos current]
    exact ⟨currentStart, rfl, held current.1, fun _ => rfl, fun left => absurd current left⟩
  · rw [if_neg current]
    by_cases above : cursor < currentStart ∨ (!sameRegion) = true
    · have rows : (cursor - viewport.base) % viewport.columns = cursor % viewport.columns := by
        obtain ⟨offset, rfl⟩ := Nat.exists_eq_add_of_le after
        obtain ⟨rows, whole⟩ := viewport.base_rows
        rw [Nat.add_sub_cancel_left, whole, Nat.mul_add_mod]
      have start : cursor - cursor % viewport.columns = viewport.row cursor := by
        rw [Viewport.row, Nat.div_mul_self_eq_mod_sub_self]
      rw [if_pos above, subtract_ok after]
      refine ⟨viewport.row cursor, ?_, ?_, fun both => absurd both current,
        fun _ => Viewport.shows_place_row inside⟩
      · simp only [bind, Except.bind, rows, subtract_ok (Nat.mod_le _ _), start]
        rfl
      · rw [← Viewport.row_of_rows viewport.base_rows]
        exact Viewport.row_mono after
    · rw [not_or, Nat.not_lt, Bool.not_eq_true', Bool.not_eq_false] at above
      have past : currentEnd ≤ cursor := by
        by_contra within
        exact current ⟨above.2, above.1, Nat.not_le.mp within⟩
      have far := below above.2 above.1 past
      rw [if_neg (by simpa using ⟨above.1, above.2⟩), subtract_ok viewport.row_fits]
      refine ⟨cursor - (viewport.window - viewport.columns), rfl, Nat.le_sub_of_add_le far,
        fun both => absurd both current, fun _ => ?_⟩
      exact Viewport.shows_place_below inside ((Nat.le_add_left _ _).trans far)

/-- The virtual view's rule is the physical one over one region. -/
theorem wantedVirtualStart_eq (columns lastStart window cursor currentStart : Nat) :
    PrimaryWidget.wantedVirtualStart columns lastStart window cursor currentStart =
      PrimaryWidget.wantedStart columns 0 lastStart window cursor currentStart
        (currentStart + window) true := by
  rw [PrimaryWidget.wantedVirtualStart, PrimaryWidget.wantedStart, subtract_ok (Nat.zero_le cursor)]
  simp only [true_and, Bool.not_true, Bool.false_eq_true, or_false]
  rfl

end Wanted

section Ensure

variable {widget : PrimaryWidget} {region held : MemRegion} {viewport : Viewport}

theorem length_pos (range : PhysicalRange) : 0 < range.length.toNat :=
  Nat.pos_of_ne_zero fun zero => range.nonempty (BitVec.eq_of_toNat_eq zero)

/-- A range in a readable region starts in it, and what it contains is in that region alone. -/
theorem memoryRegion_of_range {range : PhysicalRange} (readable : held ∈ memoryRegions)
    (inHeld : held.range.containsRange range = true) :
    memoryRegion range.start = some held ∧ ∀ address, range.containsAddress address = true →
      memoryRegion address = some held := by
  have inside := PhysicalRange.containsRange_iff.mp inHeld
  constructor
  · apply memoryRegion_eq_some.mpr
    refine ⟨readable, PhysicalRange.containsAddress_iff.mpr ⟨inside.1, ?_⟩⟩
    exact (Nat.lt_add_of_pos_right (length_pos range)).trans_le inside.2
  · intro address member
    have within := PhysicalRange.containsAddress_iff.mp member
    apply memoryRegion_eq_some.mpr
    refine ⟨readable, PhysicalRange.containsAddress_iff.mpr ⟨inside.1.trans within.1, ?_⟩⟩
    exact within.2.trans_le inside.2

/-- A placed window is a range in the region. -/
theorem exists_placed {wanted : Nat} (fits : viewport.base + viewport.size < 2 ^ 32)
    (above : viewport.base ≤ wanted) :
    ∃ range, expect (PhysicalRange.new ⟨BitVec.ofNat 32 (viewport.place wanted)⟩
        (BitVec.ofNat 32 viewport.window)).toOption = .ok range ∧
      range.start.get.toNat = viewport.place wanted ∧ range.length.toNat = viewport.window := by
  obtain ⟨_, placed⟩ := Viewport.place_inside above
  have positive : 0 < viewport.window := viewport.positive.trans_le viewport.row_fits
  have start : (BitVec.ofNat 32 (viewport.place wanted)).toNat = viewport.place wanted := by
    rw [BitVec.toNat_ofNat, Nat.mod_eq_of_lt (by omega)]
  have length : (BitVec.ofNat 32 viewport.window).toNat = viewport.window := by
    rw [BitVec.toNat_ofNat, Nat.mod_eq_of_lt (by omega)]
  have ends : (BitVec.ofNat 32 (viewport.place wanted)).toNat +
      (BitVec.ofNat 32 viewport.window).toNat ≤ 2 ^ 32 := by omega
  rw [← length] at positive
  obtain ⟨range, built, rangeStart, rangeLength⟩ := expect_new positive ends
  exact ⟨range, built, (congrArg (·.get.toNat) rangeStart).trans start,
    (congrArg BitVec.toNat rangeLength).trans length⟩

/-- The code computes the placed window. -/
theorem ensureCursorVisible_eq (found : memoryRegion widget.memoryCursor = some region)
    (base : region.base.get.toNat = viewport.base) (size : region.size.toNat = viewport.size)
    (columns : widget.memoryColumns = viewport.columns)
    (window : min widget.memoryWindow region.size.toNat = viewport.window)
    (fits : viewport.base + viewport.size < 2 ^ 32)
    (ends : widget.memoryRange.start.get.toNat + widget.memoryRange.length.toNat < 2 ^ 32)
    {wanted : Nat} (above : viewport.base ≤ wanted)
    (chosen : PrimaryWidget.wantedStart viewport.columns viewport.base viewport.lastStart
      viewport.window widget.memoryCursor.get.toNat widget.memoryRange.start.get.toNat
      (widget.memoryRange.start.get.toNat + widget.memoryRange.length.toNat)
      (memoryRegion widget.memoryRange.start = some region) = .ok (min wanted viewport.lastStart))
    {range : PhysicalRange}
    (built : expect (PhysicalRange.new ⟨BitVec.ofNat 32 (viewport.place wanted)⟩
      (BitVec.ofNat 32 viewport.window)).toOption = .ok range) :
    widget.ensureCursorVisible = .ok { widget with memoryRange := range } := by
  have least : viewport.base ≤ min wanted viewport.lastStart :=
    Nat.le_min.mpr ⟨above, Viewport.base_le_lastStart⟩
  have start : viewport.base + (min wanted viewport.lastStart - viewport.base) / viewport.columns *
      viewport.columns = viewport.place wanted := Viewport.base_add_row least
  obtain ⟨_, placed⟩ := Viewport.place_inside above
  have last : subtract (viewport.base + viewport.size) viewport.window = .ok viewport.lastStart :=
    subtract_ok (viewport.window_fits.trans (Nat.le_add_left _ _))
  have back : add32 viewport.base ((min wanted viewport.lastStart - viewport.base) /
      viewport.columns * viewport.columns) = .ok (viewport.place wanted) := by
    rw [add32_ok (by rw [start]; omega), start]
  have mapped : expect (memoryRegion widget.memoryCursor) = .ok region := by rw [found, expect]
  rw [PrimaryWidget.ensureCursorVisible, mapped]
  simp only [bind, Except.bind]
  rw [window, base, size, columns, add32_ok fits]
  simp only [last, add32_ok ends, chosen, subtract_ok least, back, built]
  rfl

/-- The physical window is placed in the region of the cursor, and shows it unless the cursor was in
the window before and the row it starts in is now too far above. -/
theorem ensureCursorVisible_ok (widget : PrimaryWidget)
    (geometry : Geometry widget.memoryColumns widget.memoryWindow)
    (found : memoryRegion widget.memoryCursor = some region) (readable : held ∈ memoryRegions)
    (inHeld : held.range.containsRange widget.memoryRange = true)
    (whole : widget.memoryRange.containsAddress widget.memoryCursor = true ∨
      widget.memoryRange.length.toNat = min widget.memoryWindow held.size.toNat) :
    ∃ range, widget.ensureCursorVisible = .ok { widget with memoryRange := range } ∧
      region.range.containsRange range = true ∧
      range.length.toNat = min widget.memoryWindow region.size.toNat ∧
      widget.memoryColumns ∣ range.start.get.toNat ∧
      (widget.memoryRange.containsAddress widget.memoryCursor = false →
        range.containsAddress widget.memoryCursor = true) ∧
      (widget.memoryRange.containsAddress widget.memoryCursor = true →
        (range.containsAddress widget.memoryCursor = true ↔ widget.memoryCursor.get.toNat <
          widget.memoryRange.start.get.toNat / widget.memoryColumns * widget.memoryColumns +
            min widget.memoryWindow region.size.toNat)) := by
  obtain ⟨mapped, inside⟩ := memoryRegion_eq_some.mp found
  obtain ⟨_, _, _, fits⟩ := region_rows mapped
  obtain ⟨_, _, _, heldFits⟩ := region_rows readable
  obtain ⟨viewport, base, size, columns, window⟩ : ∃ viewport : Viewport,
      region.base.get.toNat = viewport.base ∧ region.size.toNat = viewport.size ∧
        widget.memoryColumns = viewport.columns ∧
        min widget.memoryWindow region.size.toNat = viewport.window :=
    ⟨geometry.physical mapped, rfl, rfl, rfl, rfl⟩
  have cursorInside : region.base.get.toNat ≤ widget.memoryCursor.get.toNat ∧
      widget.memoryCursor.get.toNat < region.base.get.toNat + region.size.toNat :=
    PhysicalRange.containsAddress_iff.mp inside
  have heldInside : held.base.get.toNat ≤ widget.memoryRange.start.get.toNat ∧
      widget.memoryRange.start.get.toNat + widget.memoryRange.length.toNat ≤
        held.base.get.toNat + held.size.toNat := PhysicalRange.containsRange_iff.mp inHeld
  obtain ⟨startHeld, onlyHeld⟩ := memoryRegion_of_range readable inHeld
  rw [base, size] at cursorInside fits
  have same : decide (memoryRegion widget.memoryRange.start = some region) = true ↔
      held = region := by
    rw [decide_eq_true_iff, startHeld, Option.some.injEq]
  have visible : widget.memoryRange.containsAddress widget.memoryCursor = true ↔
      widget.memoryRange.start.get.toNat ≤ widget.memoryCursor.get.toNat ∧
        widget.memoryCursor.get.toNat <
          widget.memoryRange.start.get.toNat + widget.memoryRange.length.toNat :=
    PhysicalRange.containsAddress_iff
  -- a cursor in the window is in the region that holds the window
  have current : (decide (memoryRegion widget.memoryRange.start = some region) = true ∧
      widget.memoryRange.start.get.toNat ≤ widget.memoryCursor.get.toNat ∧
        widget.memoryCursor.get.toNat <
          widget.memoryRange.start.get.toNat + widget.memoryRange.length.toNat) ↔
      widget.memoryRange.containsAddress widget.memoryCursor = true := by
    rw [same, ← visible]
    apply and_iff_right_of_imp
    intro shown
    exact Option.some.inj ((onlyHeld _ shown).symm.trans found)
  have started (regions : decide (memoryRegion widget.memoryRange.start = some region) = true) :
      viewport.base ≤ widget.memoryRange.start.get.toNat := by
    rw [← base, ← same.mp regions]
    exact heldInside.1
  have far (regions : decide (memoryRegion widget.memoryRange.start = some region) = true)
      (_ : widget.memoryRange.start.get.toNat ≤ widget.memoryCursor.get.toNat)
      (past : widget.memoryRange.start.get.toNat + widget.memoryRange.length.toNat ≤
        widget.memoryCursor.get.toNat) :
      viewport.base + (viewport.window - viewport.columns) ≤ widget.memoryCursor.get.toNat := by
    have outside : ¬widget.memoryRange.containsAddress widget.memoryCursor = true := by
      rw [visible, not_and_or, Nat.not_lt]
      exact .inr past
    have length := whole.resolve_left outside
    rw [same.mp regions, window] at length
    rw [length] at past
    exact (Nat.add_le_add (started regions) (Nat.sub_le _ _)).trans past
  obtain ⟨wanted, chosen, above, kept, shown⟩ :=
    wantedStart_ok cursorInside.1 cursorInside.2 started far
  rw [current] at kept shown
  obtain ⟨range, built, start, length⟩ := exists_placed fits above
  have shows : range.containsAddress widget.memoryCursor = true ↔
      viewport.Shows (viewport.place wanted) widget.memoryCursor.get.toNat := by
    rw [PhysicalRange.containsAddress_iff, PhysicalRange.endExclusive, start, length]
    rfl
  refine ⟨range, ?_, ?_, ?_, ?_, ?_, ?_⟩
  · exact ensureCursorVisible_eq found base size columns window fits
      (heldInside.2.trans_lt heldFits) above chosen built
  · have placed := Viewport.place_inside above
    rw [← base, ← size, ← start, ← length] at placed
    exact PhysicalRange.containsRange_iff.mpr placed
  · rw [length, window]
  · rw [start, columns]
    exact Viewport.row_rows _
  · intro hidden
    rw [shows]
    apply shown
    rw [hidden]
    exact Bool.false_ne_true
  · intro now
    have before := (visible.mp now).1
    rw [shows, kept now, Viewport.shows_place_iff cursorInside.2 before, Viewport.row, ← columns,
      ← window]

/-- The virtual window from `start` on shows the cursor. -/
def VirtualShows (widget : PrimaryWidget) : Prop :=
  widget.virtualStart.get.toNat ≤ widget.virtualCursor.get.toNat ∧
    widget.virtualCursor.get.toNat < widget.virtualStart.get.toNat + widget.memoryWindow

/-- The same of the virtual window. -/
theorem ensureVirtualCursorVisible_ok (widget : PrimaryWidget)
    (geometry : Geometry widget.memoryColumns widget.memoryWindow) :
    ∃ start, widget.ensureVirtualCursorVisible = .ok { widget with virtualStart := start } ∧
      widget.memoryColumns ∣ start.get.toNat ∧
      (¬VirtualShows widget → VirtualShows { widget with virtualStart := start }) ∧
      (VirtualShows widget → (VirtualShows { widget with virtualStart := start } ↔
        widget.virtualCursor.get.toNat <
          widget.virtualStart.get.toNat / widget.memoryColumns * widget.memoryColumns +
            widget.memoryWindow)) := by
  obtain ⟨viewport, base, size, columns, window⟩ : ∃ viewport : Viewport,
      0 = viewport.base ∧ 2 ^ 32 = viewport.size ∧ widget.memoryColumns = viewport.columns ∧
        widget.memoryWindow = viewport.window := ⟨geometry.virtual, rfl, rfl, rfl, rfl⟩
  have inside : widget.virtualCursor.get.toNat < viewport.base + viewport.size := by
    rw [← base, ← size, Nat.zero_add]
    exact widget.virtualCursor.get.isLt
  have after : viewport.base ≤ widget.virtualCursor.get.toNat := base ▸ Nat.zero_le _
  have far (_ : true = true)
      (_ : widget.virtualStart.get.toNat ≤ widget.virtualCursor.get.toNat)
      (past : widget.virtualStart.get.toNat + viewport.window ≤ widget.virtualCursor.get.toNat) :
      viewport.base + (viewport.window - viewport.columns) ≤ widget.virtualCursor.get.toNat := by
    rw [← base]
    exact (Nat.add_le_add (Nat.zero_le _) (Nat.sub_le _ _)).trans past
  obtain ⟨wanted, chosen, above, kept, shown⟩ :=
    wantedStart_ok after inside (fun _ => base ▸ Nat.zero_le _) far
  have current : (true = true ∧
      widget.virtualStart.get.toNat ≤ widget.virtualCursor.get.toNat ∧
        widget.virtualCursor.get.toNat < widget.virtualStart.get.toNat + viewport.window) ↔
      VirtualShows widget := by
    rw [VirtualShows, window]
    exact and_iff_right rfl
  rw [current] at kept shown
  have placed := Viewport.place_inside above
  have positive : 0 < viewport.window := viewport.positive.trans_le viewport.row_fits
  have start : (BitVec.ofNat 32 (viewport.place wanted)).toNat = viewport.place wanted := by
    rw [BitVec.toNat_ofNat, Nat.mod_eq_of_lt (by omega)]
  have shows : VirtualShows
      { widget with virtualStart := ⟨BitVec.ofNat 32 (viewport.place wanted)⟩ } ↔
        viewport.Shows (viewport.place wanted) widget.virtualCursor.get.toNat := by
    rw [VirtualShows, Viewport.Shows, start, window]
  refine ⟨⟨BitVec.ofNat 32 (viewport.place wanted)⟩, ?_, ?_, ?_, ?_⟩
  · have last : subtract (2 ^ 32 - 1) (widget.memoryWindow - 1) = .ok viewport.lastStart := by
      have fits := viewport.window_fits
      rw [subtract_ok (by omega), Viewport.lastStart]
      congr 1
      omega
    rw [← base] at chosen
    rw [PrimaryWidget.ensureVirtualCursorVisible, last]
    simp only [bind, Except.bind, wantedVirtualStart_eq]
    rw [window, columns, chosen]
    rfl
  · rw [start, columns]
    exact Viewport.row_rows _
  · intro hidden
    exact shows.mpr (shown hidden)
  · intro now
    rw [shows, kept now, Viewport.shows_place_iff inside now.1, Viewport.row, ← columns, ← window]

end Ensure

namespace PrimaryWidget

variable {widget : PrimaryWidget}

/-- The cursors are in their windows, and the physical window is whole rows of one region. -/
structure CursorVisible (widget : PrimaryWidget) : Prop where
  readable : ∃ region ∈ memoryRegions, region.range.containsRange widget.memoryRange = true
  rows : widget.memoryColumns ∣ widget.memoryRange.start.get.toNat
  physical : widget.memoryRange.containsAddress widget.memoryCursor = true
  virtual : VirtualShows widget

/-- What every event keeps, also one that cuts a cursor off. -/
structure Framed (widget : PrimaryWidget) : Prop where
  geometry : Geometry widget.memoryColumns widget.memoryWindow
  whole : ∃ region ∈ memoryRegions, region.range.containsRange widget.memoryRange = true ∧
    widget.memoryRange.length.toNat = min widget.memoryWindow region.size.toNat
  rows : widget.memoryColumns ∣ widget.memoryRange.start.get.toNat
  virtualRows : widget.memoryColumns ∣ widget.virtualStart.get.toNat

/-- The rows of the new window that start where the current windows start reach the cursors; a
virtual cursor that is past the new window is followed. -/
structure Reaches (widget : PrimaryWidget) (columns window : Nat) : Prop where
  physical : ∀ region, memoryRegion widget.memoryCursor = some region →
    widget.memoryCursor.get.toNat <
      widget.memoryRange.start.get.toNat / columns * columns + min window region.size.toNat
  virtual : widget.virtualCursor.get.toNat <
      widget.virtualStart.get.toNat / columns * columns + window ∨
    widget.virtualStart.get.toNat + window ≤ widget.virtualCursor.get.toNat

/-- A memory view that is drawn with another geometry still reaches the cursors. -/
def Meets (widget : PrimaryWidget) (event : PrimaryEvent) : Prop :=
  ∀ area, event = .render area → widget.subview ≠ .disassembly →
    ¬(widget.memoryColumns = (geometry area).1 ∧ widget.memoryWindow = (geometry area).2) →
      widget.Reaches (geometry area).1 (geometry area).2

theorem framed_default : Framed {} where
  geometry := ⟨.inr rfl, 32, by decide, by decide, rfl⟩
  whole := ⟨.ram, by decide, by decide, by decide⟩
  rows := ⟨0x0800_0000, rfl⟩
  virtualRows := ⟨0, rfl⟩

theorem visible_default : CursorVisible {} where
  readable := ⟨.ram, by decide, by decide⟩
  rows := ⟨0x0800_0000, rfl⟩
  physical := by decide
  virtual := ⟨le_rfl, by decide⟩

/-- Whatever readable address the cursor goes to, the window goes with it. -/
theorem visible_moved (framed : widget.Framed) (visible : widget.CursorVisible)
    {cursor : PhysicalAddress} (readable : ∃ region, memoryRegion cursor = some region) :
    ∃ after, { widget with memoryCursor := cursor }.ensureCursorVisible = .ok after ∧
      after.Framed ∧ after.CursorVisible := by
  obtain ⟨region, found⟩ := readable
  obtain ⟨held, heldReadable, inHeld, length⟩ := framed.whole
  obtain ⟨range, computed, inside, sized, rows, hidden, shown⟩ :=
    ensureCursorVisible_ok { widget with memoryCursor := cursor } framed.geometry found
      heldReadable inHeld (.inr length)
  have mapped := (memoryRegion_eq_some.mp found).1
  refine ⟨_, computed, ⟨framed.geometry, ⟨region, mapped, inside, sized⟩, rows, framed.virtualRows⟩,
    ⟨⟨region, mapped, inside⟩, rows, ?_, visible.virtual⟩⟩
  cases before : widget.memoryRange.containsAddress cursor with
  | false => exact hidden before
  | true =>
    apply (shown before).mpr
    have within := PhysicalRange.containsAddress_iff.mp before
    have same : held = region :=
      Option.some.inj (((memoryRegion_of_range heldReadable inHeld).2 _ before).symm.trans found)
    rw [Nat.div_mul_cancel framed.rows, ← same, ← length]
    exact within.2

theorem visible_movedVirtual (framed : widget.Framed) (visible : widget.CursorVisible)
    (cursor : VirtualAddress) :
    ∃ after, { widget with
        virtualCursor := cursor, virtualInitialized := true }.ensureVirtualCursorVisible =
          .ok after ∧ after.Framed ∧ after.CursorVisible := by
  obtain ⟨start, computed, rows, hidden, shown⟩ :=
    ensureVirtualCursorVisible_ok
      { widget with virtualCursor := cursor, virtualInitialized := true } framed.geometry
  refine ⟨_, computed, ⟨framed.geometry, framed.whole, framed.rows, rows⟩,
    ⟨visible.readable, visible.rows, visible.physical, ?_⟩⟩
  by_cases before : VirtualShows
      { widget with virtualCursor := cursor, virtualInitialized := true }
  · apply (shown before).mpr
    rw [Nat.div_mul_cancel framed.virtualRows]
    exact before.2
  · exact hidden before

theorem geometry_area (area : Rect) : Geometry (geometry area).1 (geometry area).2 where
  width := by
    rw [geometry]
    by_cases wide : 46 ≤ area.width.toNat
    · exact .inr (if_pos wide)
    · exact .inl (if_neg wide)
  height := by
    have high := area.height.isLt
    refine ⟨max (area.height.toNat - 4) 1, ?_, ?_, rfl⟩
    · exact Nat.one_pos.trans_le (Nat.le_max_right _ _)
    · exact Nat.max_lt.mpr ⟨(Nat.sub_le _ _).trans_lt high, by decide⟩

/-- A resize keeps the cursors visible exactly when the new window reaches them. -/
theorem visible_resized (framed : widget.Framed) (visible : widget.CursorVisible) (area : Rect)
    (other : ¬(widget.memoryColumns = (geometry area).1 ∧ widget.memoryWindow = (geometry area).2)) :
    ∃ after, widget.updateMemoryGeometry area = .ok after ∧ after.Framed ∧
      (after.CursorVisible ↔ widget.Reaches (geometry area).1 (geometry area).2) := by
  obtain ⟨held, heldReadable, inHeld, _⟩ := framed.whole
  have found := (memoryRegion_of_range heldReadable inHeld).2 _ visible.physical
  obtain ⟨range, computed, inside, sized, rows, _, shown⟩ :=
    ensureCursorVisible_ok
      { widget with memoryColumns := (geometry area).1, memoryWindow := (geometry area).2 }
      (geometry_area area) found heldReadable inHeld (.inl visible.physical)
  obtain ⟨start, computedVirtual, virtualRows, hidden, virtualShown⟩ :=
    ensureVirtualCursorVisible_ok
      { widget with
        memoryColumns := (geometry area).1
        memoryWindow := (geometry area).2
        memoryRange := range } (geometry_area area)
  refine ⟨{ widget with
      memoryColumns := (geometry area).1
      memoryWindow := (geometry area).2
      memoryRange := range
      virtualStart := start
      memory := []
      virtualMemory := []
      memoryDirty := true
      virtualDirty := true }, ?_,
    ⟨geometry_area area, ⟨held, heldReadable, inside, sized⟩, rows, virtualRows⟩, ?_⟩
  · rw [updateMemoryGeometry]
    dsimp only
    rw [if_neg other, computed]
    simp only [bind, Except.bind]
    rw [computedVirtual]
    rfl
  · constructor
    · intro after
      refine ⟨fun region mapped => ?_, ?_⟩
      · rw [found] at mapped
        cases mapped
        exact (shown visible.physical).mp after.physical
      · by_cases near : widget.virtualCursor.get.toNat <
            widget.virtualStart.get.toNat + (geometry area).2
        · exact .inl ((virtualShown ⟨visible.virtual.1, near⟩).mp after.virtual)
        · exact .inr (Nat.not_lt.mp near)
    · intro reaches
      refine ⟨⟨held, heldReadable, inside⟩, rows, ?_, ?_⟩
      · exact (shown visible.physical).mpr (reaches.physical held found)
      · rcases reaches.virtual with near | far
        · by_cases before : VirtualShows { widget with
              memoryColumns := (geometry area).1
              memoryWindow := (geometry area).2
              memoryRange := range }
          · exact (virtualShown before).mpr near
          · exact hidden before
        · exact hidden fun before => absurd before.2 (Nat.not_lt.mpr far)

/-- The widget is as it should be, or the product of step and count in `nav_disassembly` has
panicked. -/
def Fine (result : Except Panic PrimaryWidget) : Prop :=
  result = .error .multiplication ∨ ∃ widget, result = .ok widget ∧ widget.Framed ∧
    widget.CursorVisible

theorem Framed.fine {after : PrimaryWidget} (framed : after.Framed)
    (visible : after.CursorVisible) : Fine (.ok after) := .inr ⟨after, rfl, framed, visible⟩

/-- The windows and the cursors in them. -/
def frame (widget : PrimaryWidget) :=
  (widget.memoryColumns, widget.memoryWindow, widget.memoryRange, widget.memoryCursor,
    widget.virtualStart, widget.virtualCursor)

/-- What leaves windows and cursors alone is fine. -/
theorem Framed.same (framed : widget.Framed) (visible : widget.CursorVisible) {after : PrimaryWidget}
    (same : after.frame = widget.frame) : Fine (.ok after) := by
  simp only [frame, Prod.mk.injEq] at same
  obtain ⟨columns, window, range, cursor, start, virtual⟩ := same
  apply Framed.fine
  · constructor
    · rw [columns, window]
      exact framed.geometry
    · rw [range, window]
      exact framed.whole
    · rw [columns, range]
      exact framed.rows
    · rw [columns, start]
      exact framed.virtualRows
  · constructor
    · rw [range]
      exact visible.readable
    · rw [columns, range]
      exact visible.rows
    · rw [range, cursor]
      exact visible.physical
    · rw [VirtualShows, start, virtual, window]
      exact visible.virtual

theorem fine_navDisassembly (framed : widget.Framed) (visible : widget.CursorVisible)
    (motion : Motion) : Fine (widget.navDisassembly motion) := by
  have moved (address : Nat) : Fine (.ok
      { widget with disassemblyAddress := some ⟨BitVec.ofNat 32 address &&& ~~~3#32⟩ }) :=
    framed.same visible rfl
  have product (step count : Nat) (place : Nat → Nat) :
      Fine (((multiply32 step count).map place).bind fun address => .ok
        { widget with disassemblyAddress := some ⟨BitVec.ofNat 32 address &&& ~~~3#32⟩ }) := by
    rw [multiply32]
    split
    · exact moved _
    · exact .inl rfl
  cases motion with
  | top | bottom => exact moved _
  | left | up | down | right | nextItem | endItem => exact product _ _ _

theorem fine_moved (framed : widget.Framed) (visible : widget.CursorVisible)
    {cursor : PhysicalAddress} (readable : ∃ region, memoryRegion cursor = some region) :
    Fine { widget with memoryCursor := cursor }.ensureCursorVisible := by
  obtain ⟨after, computed, both⟩ := visible_moved framed visible readable
  exact .inr ⟨after, computed, both⟩

theorem fine_movedVirtual (framed : widget.Framed) (visible : widget.CursorVisible)
    (cursor : VirtualAddress) :
    Fine { widget with
      virtualCursor := cursor, virtualInitialized := true }.ensureVirtualCursorVisible := by
  obtain ⟨after, computed, both⟩ := visible_movedVirtual framed visible cursor
  exact .inr ⟨after, computed, both⟩

theorem fine_goto (framed : widget.Framed) (visible : widget.CursorVisible) (value : List Char) :
    Fine (widget.goto value) := by
  rw [goto]
  cases parseHexAddress value with
  | none => exact framed.fine visible
  | some address =>
    dsimp only
    split
    · split
      · exact framed.fine visible
      · rename_i readable
        exact fine_moved framed visible (Option.ne_none_iff_exists'.mp readable)
    · exact fine_movedVirtual framed visible ⟨address⟩
    · exact framed.same visible rfl

/-- Every event but a resize keeps the cursors visible. -/
theorem fine_update (framed : widget.Framed) (visible : widget.CursorVisible)
    {event : PrimaryEvent} (still : ∀ area, event ≠ .render area) : Fine (widget.update event) := by
  cases event with
  | liveMemory range bytes =>
    rw [update]
    split
    · exact framed.same visible rfl
    · exact framed.fine visible
  | virtualMemory address bytes =>
    rw [update]
    split
    · exact framed.same visible rfl
    · exact framed.fine visible
  | execution inspection =>
    have told : Framed { widget with execution := some inspection } :=
      ⟨framed.geometry, framed.whole, framed.rows, framed.virtualRows⟩
    have shown : CursorVisible { widget with execution := some inspection } :=
      ⟨visible.readable, visible.rows, visible.physical, visible.virtual⟩
    rw [update]
    dsimp only
    split
    · exact fine_movedVirtual told shown ⟨inspection.cpu.read .pc⟩
    · exact told.fine shown
  | searchMatch found =>
    have readable : memoryRegion found.address = some .ram :=
      memoryRegion_eq_some.mpr ⟨by decide, found.inRam⟩
    exact fine_moved framed visible ⟨.ram, readable⟩
  | viewChanged view =>
    exact framed.same visible rfl
  | pulse =>
    rw [update]
    split
    · split
      · exact framed.same visible rfl
      · exact framed.same visible rfl
      · exact framed.fine visible
    · exact framed.fine visible
  | primarySelected subview =>
    have told : Framed { widget with subview } :=
      ⟨framed.geometry, framed.whole, framed.rows, framed.virtualRows⟩
    have shown : CursorVisible { widget with subview } :=
      ⟨visible.readable, visible.rows, visible.physical, visible.virtual⟩
    rw [update]
    dsimp only
    split
    · rename_i execution _
      split
      · exact fine_movedVirtual told shown ⟨execution.cpu.read .pc⟩
      · exact told.fine shown
    · exact told.fine shown
  | navigate motion =>
    rw [update]
    split
    · exact fine_moved framed visible (readable_addressFrom _ fun _ member => member)
    · exact fine_movedVirtual framed visible _
    · exact fine_navDisassembly framed visible motion
  | goto value => exact fine_goto framed visible value
  | render area => exact absurd rfl (still area)

end PrimaryWidget

namespace PrimaryPane

open PrimaryWidget

def start : Except Panic PrimaryWidget := .ok {}

/-- The widget takes its events in order, until it panics. -/
def step (state : Except Panic PrimaryWidget) (event : PrimaryEvent) : Except Panic PrimaryWidget :=
  state.bind (·.update event)

/-- No subtraction has underflown and no `expect` has failed, and the cursors are visible; the
product of step and count in the disassembly view may have panicked. -/
def Holds (state : Except Panic PrimaryWidget) : Prop :=
  state = .error .multiplication ∨ ∃ widget, state = .ok widget ∧ widget.CursorVisible

/-- The widget there is meets the condition on its next event. -/
def Meets (state : Except Panic PrimaryWidget) (event : PrimaryEvent) : Prop :=
  ∀ widget, state = .ok widget → widget.Meets event

variable {widget : PrimaryWidget}

/-- Drawing keeps the frame, and keeps the cursors visible exactly under the condition. -/
theorem render_exact (framed : widget.Framed) (visible : widget.CursorVisible) (area : Rect) :
    ∃ after, widget.update (.render area) = .ok after ∧ after.Framed ∧
      (after.CursorVisible ↔ widget.Meets (.render area)) := by
  rw [update]
  by_cases hidden : widget.subview = .disassembly
  · rw [if_pos hidden]
    refine ⟨widget, rfl, framed, iff_of_true visible ?_⟩
    intro _ _ memory
    exact absurd hidden memory
  · rw [if_neg hidden]
    by_cases same : widget.memoryColumns = (geometry area).1 ∧
        widget.memoryWindow = (geometry area).2
    · refine ⟨widget, if_pos same, framed, iff_of_true visible ?_⟩
      intro other drawn _ changed
      cases drawn
      exact absurd same changed
    · obtain ⟨after, resized, framed', shown⟩ := visible_resized framed visible area same
      refine ⟨after, resized, framed', shown.trans ?_⟩
      constructor
      · intro reaches other drawn _ _
        cases drawn
        exact reaches
      · intro meets
        exact meets area rfl hidden same

theorem fine_of_holds_render (framed : widget.Framed) (visible : widget.CursorVisible) (area : Rect) :
    (widget.Meets (.render area) ↔ Holds (widget.update (.render area))) ∧
      (Holds (widget.update (.render area)) → Fine (widget.update (.render area))) := by
  obtain ⟨after, drawn, framed', shown⟩ := render_exact framed visible area
  have holds : Holds (widget.update (.render area)) ↔ after.CursorVisible := by
    rw [drawn]
    constructor
    · intro held
      rcases held with panicked | ⟨same, ok, both⟩
      · cases panicked
      · cases ok
        exact both
    · intro held
      exact .inr ⟨after, rfl, held⟩
  rw [holds]
  refine ⟨shown.symm, fun held => ?_⟩
  rw [drawn]
  exact framed'.fine held

theorem holds_of_fine {state : Except Panic PrimaryWidget} (fine : Fine state) : Holds state := by
  rcases fine with panicked | ⟨widget, ok, _, visible⟩
  · exact .inl panicked
  · exact .inr ⟨widget, ok, visible⟩

/-- One event from a fine state: the condition is met exactly when the property holds after it. -/
theorem step_exact {state : Except Panic PrimaryWidget} (event : PrimaryEvent) (fine : Fine state) :
    (Meets state event ↔ Holds (step state event)) ∧
      (Holds (step state event) → Fine (step state event)) := by
  rcases fine with rfl | ⟨widget, rfl, framed, visible⟩
  · refine ⟨iff_of_true (fun _ ok => ?_) (.inl rfl), fun _ => .inl rfl⟩
    cases ok
  · have meets : Meets (.ok widget) event ↔ widget.Meets event := by
      constructor
      · intro met
        exact met widget rfl
      · intro met other ok
        cases ok
        exact met
    rw [meets]
    by_cases drawn : ∃ area, event = .render area
    · obtain ⟨area, rfl⟩ := drawn
      exact fine_of_holds_render framed visible area
    · have still : ∀ area, event ≠ .render area := fun area same => drawn ⟨area, same⟩
      have updated := fine_update framed visible still
      exact ⟨iff_of_true (fun area same => absurd same (still area)) (holds_of_fine updated),
        fun _ => updated⟩

/-- Over every sequence of events from the default widget: in every state the property holds exactly
when every resize meets its condition. -/
theorem cursor_visible_iff (events : List PrimaryEvent) :
    (∀ state ∈ visited step start events, Holds state) ↔ Throughout step Meets start events :=
  visited_iff_throughout (fun _ => holds_of_fine) (fun _ event fine => (step_exact event fine).1)
    (fun _ event fine => (step_exact event fine).2) start events
    (framed_default.fine visible_default)

/-- The cursor moves within the default window, and a smaller pane cuts it off. -/
theorem shrunk_window_loses_cursor :
    ¬∀ state ∈ visited step start [.navigate (.right 200), .render ⟨60, 20⟩], Holds state := by
  intro holds
  have last : ∃ widget, run step start [.navigate (.right 200), .render ⟨60, 20⟩] = .ok widget ∧
      widget.memoryRange.containsAddress widget.memoryCursor = false :=
    ⟨_, rfl, by decide⟩
  obtain ⟨widget, reached, hidden⟩ := last
  rcases holds _ (run_mem_visited step _ _) with panicked | ⟨other, same, visible⟩
  · rw [reached] at panicked
    cases panicked
  · rw [reached] at same
    cases same
    have shown := visible.physical
    rw [hidden] at shown
    cases shown

end PrimaryPane

end Minemu.Tui

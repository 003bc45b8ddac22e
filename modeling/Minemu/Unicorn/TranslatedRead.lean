import Minemu.Library.Search
import Minemu.Unicorn.Inspection

/-! Reads through the guest's translation, over any engine that translates by pages: is a read a
page at a time a read byte by byte? -/

namespace Minemu.Unicorn

open Library Platform Minemu.Core

/-- What `read_translated_memory` asks of Unicorn. Physical addresses are `u64`. -/
structure ReadEngine (State : Type u) where
  vmemTranslate : State → U32 → MemType → Except UcError Nat × State
  memRead : State → (address length : Nat) → Except UcError (List U8) × State

namespace ReadEngine

variable {State : Type u} (engine : ReadEngine State)

/-- The page loop of `read_translated_memory` from `offset` on, with its checked conversions. -/
def readTranslatedFrom (address : U32) (length : Nat) (protection : MemType) (rejectDevices : Bool)
    (state : State) (offset : Nat) : Except BackendError (List U8) × State :=
  if offset < length then
    if 2 ^ 32 ≤ offset then (.error .inspectionRange, state)
    else if 2 ^ 32 ≤ address.toNat + offset then (.error .inspectionRange, state)
    else
      let virtualAddress := address + BitVec.ofNat 32 offset
      let count := min (length - offset) (UnicornBackend.pageRemaining virtualAddress)
      match engine.vmemTranslate state virtualAddress protection with
      | (.error error, state) => (.error (.unicorn error), state)
      | (.ok physical, state) =>
        if 2 ^ 32 ≤ physical then (.error .inspectionRange, state)
        else if rejectDevices ∧
            (MemRegion.ofAddress ⟨BitVec.ofNat 32 physical⟩).any MemRegion.isDevice then
          (.error (.virtualInspectionDevice (BitVec.ofNat 32 physical)), state)
        else
          match engine.memRead state physical count with
          | (.error error, state) => (.error (.unicorn error), state)
          | (.ok bytes, state) =>
            let (rest, state) := readTranslatedFrom address length protection rejectDevices state
              (offset + count)
            (rest.map (bytes ++ ·), state)
  else (.ok [], state)
termination_by length - offset
decreasing_by
  have positive := UnicornBackend.pageRemaining_pos (address + BitVec.ofNat 32 offset)
  omega

def readTranslatedMemory (address : U32) (length : Nat) (protection : MemType)
    (rejectDevices : Bool) (state : State) : Except BackendError (List U8) × State :=
  engine.readTranslatedFrom address length protection rejectDevices state 0

end ReadEngine

/-! ### Pages -/

/-- Physical memory by pages of 4 KiB: the bytes of a page that can be read, in 2^20 pages. -/
structure PhysicalPages where
  page : Nat → Option (Nat → U8)
  inside : ∀ number, (page number).isSome → number < 2 ^ 20

/-- The page belongs to a device. -/
def devicePage (number : Nat) : Bool :=
  (MemRegion.ofAddress ⟨BitVec.ofNat 32 (number * 4096)⟩).any MemRegion.isDevice

/-- One address tells whether its page is a device page: regions consist of pages. -/
theorem device_eq_devicePage {physical : Nat} (small : physical < 2 ^ 32) :
    (MemRegion.ofAddress ⟨BitVec.ofNat 32 physical⟩).any MemRegion.isDevice =
      devicePage (physical / 4096) := by
  have same : MemRegion.ofAddress ⟨BitVec.ofNat 32 physical⟩ =
      MemRegion.ofAddress ⟨BitVec.ofNat 32 (physical / 4096 * 4096)⟩ := by
    apply Option.ext
    intro region
    have pages := region.page_multiple
    rw [MemRegion.ofAddress_eq_some, MemRegion.ofAddress_eq_some,
      PhysicalRange.containsAddress_iff, PhysicalRange.containsAddress_iff, BitVec.toNat_ofNat,
      BitVec.toNat_ofNat]
    omega
  rw [devicePage, same]

/-- The byte at a physical address, if its page can be read. -/
def PhysicalPages.byte (memory : PhysicalPages) (physical : Nat) : Option U8 :=
  (memory.page (physical / 4096)).map fun page => page (physical % 4096)

/-- A translation by pages: each virtual page has a fault or one physical page. -/
def translate (frames : Nat → Except UcError Nat) (position : Nat) : Except UcError Nat :=
  (frames (position / 4096)).map fun frame => frame * 4096 + position % 4096

/-- The engine translates a page to a fault or to one physical page, and reads parts of physical
pages, in every state it keeps to. -/
structure ReadEngine.Answers {State : Type u} (engine : ReadEngine State) (protection : MemType)
    (frames : Nat → Except UcError Nat) (memory : PhysicalPages) (kept : State → Prop) : Prop where
  translates : ∀ state (address : U32), kept state →
    (engine.vmemTranslate state address protection).1 = translate frames address.toNat
  reads : ∀ state frame offset length, kept state → 0 < length → offset + length ≤ 4096 →
    match memory.page frame with
    | some page => (engine.memRead state (frame * 4096 + offset) length).1 =
        .ok (window page offset length)
    | none => ∃ error, (engine.memRead state (frame * 4096 + offset) length).1 = .error error
  keptTranslating : ∀ state address, kept state →
    kept (engine.vmemTranslate state address protection).2
  keptReading : ∀ state address length, kept state → kept (engine.memRead state address length).2

/-- The byte a virtual address translates to, if it can be read. -/
def translatedByte (frames : Nat → Except UcError Nat) (memory : PhysicalPages)
    (rejectDevices : Bool) (position : Nat) : Option U8 :=
  if position < 2 ^ 32 then
    match frames (position / 4096) with
    | .error _ => none
    | .ok frame =>
      if rejectDevices ∧ devicePage frame then none
      else (memory.page frame).map fun page => page (position % 4096)
  else none

section Bytes

variable {byte : Nat → Option U8} {start length : Nat} {bytes piece : List U8}

theorem unreadable (positive : 0 < length) (missing : byte start = none) :
    ¬(List.range' start length).map byte = bytes.map some := by
  obtain ⟨rest, rfl⟩ := Nat.exists_eq_add_of_lt positive
  rw [Nat.zero_add, List.range'_succ, List.map_cons, missing]
  cases bytes with
  | nil => exact List.cons_ne_nil _ _
  | cons first bytes =>
    intro same
    cases (List.cons.inj same).1

/-- After a piece that is read comes the rest. -/
theorem read_append {count : Nat} (fits : count ≤ length)
    (read : (List.range' start count).map byte = piece.map some) :
    (List.range' start length).map byte = bytes.map some ↔
      ∃ rest, (List.range' (start + count) (length - count)).map byte = rest.map some ∧
        piece ++ rest = bytes := by
  have parts : List.range' start length =
      List.range' start count ++ List.range' (start + count) (length - count) := by
    rw [List.range'_append_1, Nat.add_sub_cancel' fits]
  rw [parts, List.map_append, read]
  constructor
  · intro same
    obtain ⟨left, rest, rfl, first, second⟩ := List.map_eq_append_iff.mp same.symm
    refine ⟨rest, second.symm, ?_⟩
    rw [List.map_injective_iff.mpr (Option.some_injective _) first]
  · intro ⟨rest, second, whole⟩
    rw [second, ← whole, List.map_append]

theorem exists_map_some {items : List Nat} :
    (∃ bytes : List U8, items.map byte = bytes.map some) ↔ ∀ item ∈ items, (byte item).isSome = true := by
  induction items with
  | nil => exact iff_of_true ⟨[], rfl⟩ fun _ member => by cases member
  | cons item items ih =>
    rw [List.forall_mem_cons, ← ih, Option.isSome_iff_exists]
    constructor
    · intro ⟨bytes, same⟩
      obtain ⟨first, bytes, rfl, head, rest⟩ := List.map_eq_cons_iff.mp same.symm
      exact ⟨⟨first, head.symm⟩, bytes, rest.symm⟩
    · intro ⟨⟨first, head⟩, bytes, rest⟩
      exact ⟨first :: bytes, by rw [List.map_cons, List.map_cons, head, rest]⟩

end Bytes

namespace ReadEngine

variable {State : Type u} {engine : ReadEngine State} {protection : MemType}
  {frames : Nat → Except UcError Nat} {memory : PhysicalPages} {kept : State → Prop}

theorem translatedByte_beyond {rejectDevices : Bool} {position : Nat} (beyond : 2 ^ 32 ≤ position) :
    translatedByte frames memory rejectDevices position = none :=
  if_neg (Nat.not_lt.mpr beyond)

theorem translatedByte_fault {rejectDevices : Bool} {position : Nat} {error : UcError}
    (fault : frames (position / 4096) = .error error) :
    translatedByte frames memory rejectDevices position = none := by
  rw [translatedByte, fault]
  split <;> rfl

theorem translatedByte_of_frame {rejectDevices : Bool} {position frame : Nat}
    (inside : position < 2 ^ 32) (mapped : frames (position / 4096) = .ok frame) :
    translatedByte frames memory rejectDevices position =
      if rejectDevices ∧ devicePage frame then none
      else (memory.page frame).map fun page => page (position % 4096) := by
  rw [translatedByte, if_pos inside, mapped]

theorem toNat_add_offset {address : U32} {offset : Nat} (fits : address.toNat + offset < 2 ^ 32) :
    (address + BitVec.ofNat 32 offset).toNat = address.toNat + offset := by
  rw [BitVec.toNat_add, BitVec.toNat_ofNat, Nat.mod_eq_of_lt (by omega : offset < 2 ^ 32)]
  exact Nat.mod_eq_of_lt fits

/-- What the engine answers for one address. -/
theorem Answers.frame (answers : engine.Answers protection frames memory kept) {state after : State}
    (held : kept state) {address : U32} {physical : Nat}
    (translated : engine.vmemTranslate state address protection = (.ok physical, after)) :
    ∃ frame, frames (address.toNat / 4096) = .ok frame ∧
      physical = frame * 4096 + address.toNat % 4096 := by
  have answer := answers.translates state address held
  rw [translated, translate] at answer
  cases mapped : frames (address.toNat / 4096) with
  | error error =>
    rw [mapped] at answer
    cases answer
  | ok frame =>
    rw [mapped] at answer
    cases answer
    exact ⟨frame, rfl, rfl⟩

theorem Answers.fault (answers : engine.Answers protection frames memory kept) {state after : State}
    (held : kept state) {address : U32} {error : UcError}
    (translated : engine.vmemTranslate state address protection = (.error error, after)) :
    frames (address.toNat / 4096) = .error error := by
  have answer := answers.translates state address held
  rw [translated, translate] at answer
  cases mapped : frames (address.toNat / 4096) with
  | error other =>
    rw [mapped] at answer
    cases answer
    rfl
  | ok frame =>
    rw [mapped] at answer
    cases answer

/-- A piece of one page is read byte by byte. -/
theorem piece_eq {rejectDevices : Bool} {start count frame : Nat} {page : Nat → U8}
    (inside : start + count ≤ 2 ^ 32) (within : start % 4096 + count ≤ 4096)
    (mapped : frames (start / 4096) = .ok frame)
    (allowed : ¬(rejectDevices = true ∧ devicePage frame = true))
    (readable : memory.page frame = some page) :
    (List.range' start count).map (translatedByte frames memory rejectDevices) =
      (window page (start % 4096) count).map some := by
  apply List.ext_getElem
  · simp only [List.length_map, List.length_range', length_window]
  · intro index left right
    rw [List.length_map, List.length_range'] at left
    have same : (start + index) / 4096 = start / 4096 := by omega
    have rest : (start + index) % 4096 = start % 4096 + index := by omega
    have here : translatedByte frames memory rejectDevices (start + index) = _ :=
      translatedByte_of_frame (by omega) (same ▸ mapped)
    rw [if_neg allowed, readable, Option.map_some, rest] at here
    simp only [window, List.getElem_map, List.getElem_range', List.getElem_range, Nat.one_mul]
    exact here

theorem page_beyond (memory : PhysicalPages) {number : Nat} (beyond : 2 ^ 20 ≤ number) :
    memory.page number = none := by
  cases found : memory.page number with
  | none => rfl
  | some page =>
    have inside := memory.inside number (by rw [found]; rfl)
    exact absurd inside (Nat.not_lt.mpr beyond)

theorem frame_of_physical (frame address : Nat) :
    (frame * 4096 + address % 4096) / 4096 = frame := by
  omega

theorem count_pos {length offset : Nat} {address : U32} (unfinished : offset < length) :
    0 < min (length - offset) (UnicornBackend.pageRemaining address) :=
  Nat.lt_min.mpr ⟨Nat.sub_pos_of_lt unfinished, UnicornBackend.pageRemaining_pos address⟩

theorem count_within {length : Nat} (address : U32) :
    address.toNat % 4096 + min length (UnicornBackend.pageRemaining address) ≤ 4096 := by
  rw [UnicornBackend.pageRemaining]
  omega

/-- From any offset on, the loop returns the translated bytes, and fails where one is missing. -/
theorem readTranslatedFrom_eq_ok (answers : engine.Answers protection frames memory kept)
    (address : U32) (length : Nat) (rejectDevices : Bool) (state : State) (offset : Nat)
    (held : kept state) (bytes : List U8) :
    (engine.readTranslatedFrom address length protection rejectDevices state offset).1 = .ok bytes ↔
      (List.range' (address.toNat + offset) (length - offset)).map
        (translatedByte frames memory rejectDevices) = bytes.map some := by
  have failed (bytes : List U8) {error : BackendError} {offset : Nat} (unfinished : offset < length)
      (missing : translatedByte frames memory rejectDevices (address.toNat + offset) = none) :
      (Except.error error : Except BackendError (List U8)) = .ok bytes ↔
        (List.range' (address.toNat + offset) (length - offset)).map
          (translatedByte frames memory rejectDevices) = bytes.map some :=
    iff_of_false (fun done => by cases done) (unreadable (Nat.sub_pos_of_lt unfinished) missing)
  fun_induction readTranslatedFrom engine address length protection rejectDevices state offset
    generalizing bytes with
  | case1 state offset unfinished wide =>
    exact failed bytes unfinished (translatedByte_beyond (wide.trans (Nat.le_add_left _ _)))
  | case2 state offset unfinished narrow wraps =>
    exact failed bytes unfinished (translatedByte_beyond wraps)
  | case3 state offset unfinished narrow fits virtualAddress error after translated =>
    have fault := answers.fault held translated
    rw [toNat_add_offset (Nat.not_le.mp fits)] at fault
    exact failed bytes unfinished (translatedByte_fault fault)
  | case4 state offset unfinished narrow fits virtualAddress physical after translated wide =>
    obtain ⟨frame, mapped, rfl⟩ := answers.frame held translated
    rw [toNat_add_offset (Nat.not_le.mp fits)] at mapped
    apply failed bytes unfinished
    rw [translatedByte_of_frame (Nat.not_le.mp fits) mapped, page_beyond memory (by omega)]
    exact ite_self _
  | case5 state offset unfinished narrow fits virtualAddress physical after translated small
      device =>
    obtain ⟨frame, mapped, rfl⟩ := answers.frame held translated
    rw [toNat_add_offset (Nat.not_le.mp fits)] at mapped
    rw [device_eq_devicePage (Nat.not_le.mp small), frame_of_physical] at device
    apply failed bytes unfinished
    rw [translatedByte_of_frame (Nat.not_le.mp fits) mapped, if_pos device]
  | case6 state offset unfinished narrow fits virtualAddress count physical middle translated small
      plain error after read =>
    obtain ⟨frame, mapped, rfl⟩ := answers.frame held translated
    have kept' : kept middle := by
      have moved := answers.keptTranslating state virtualAddress held
      rwa [translated] at moved
    have answer := answers.reads middle frame (virtualAddress.toNat % 4096) count kept'
      (count_pos unfinished) (count_within _)
    rw [read] at answer
    rw [toNat_add_offset (Nat.not_le.mp fits)] at mapped
    apply failed bytes unfinished
    rw [translatedByte_of_frame (Nat.not_le.mp fits) mapped]
    cases readable : memory.page frame with
    | none => exact ite_self _
    | some page =>
      rw [readable] at answer
      cases answer
  | case7 state offset unfinished narrow fits virtualAddress count physical middle translated small
      plain piece after read rest last recursed ih =>
    obtain ⟨frame, mapped, rfl⟩ := answers.frame held translated
    have kept' : kept middle := by
      have moved := answers.keptTranslating state virtualAddress held
      rwa [translated] at moved
    have kept'' : kept after := by
      have moved := answers.keptReading middle (frame * 4096 + virtualAddress.toNat % 4096) count
        kept'
      rwa [read] at moved
    have answer := answers.reads middle frame (virtualAddress.toNat % 4096) count kept'
      (count_pos unfinished) (count_within _)
    rw [read] at answer
    have place : virtualAddress.toNat = address.toNat + offset :=
      toNat_add_offset (Nat.not_le.mp fits)
    have within : (address.toNat + offset) % 4096 + count ≤ 4096 := place ▸ count_within _
    cases readable : memory.page frame with
    | none =>
      rw [readable] at answer
      obtain ⟨error, failed⟩ := answer
      cases failed
    | some page =>
      rw [readable] at answer
      cases answer
      rw [place] at mapped
      rw [device_eq_devicePage (Nat.not_le.mp small), frame_of_physical] at plain
      have pieces := piece_eq (by omega) within mapped plain readable
      have rests (others : List U8) : rest = .ok others ↔
          (List.range' (address.toNat + offset + count) (length - offset - count)).map
            (translatedByte frames memory rejectDevices) = others.map some := by
        have later := ih kept'' others
        rwa [recursed, ← Nat.add_assoc, Nat.sub_add_eq] at later
      rw [read_append (Nat.min_le_left _ _) pieces, place]
      refine Iff.trans ?_ (exists_congr fun others => and_congr_left' (rests others))
      cases rest with
      | error error =>
        constructor
        · intro done
          cases done
        · intro ⟨_, failed, _⟩
          cases failed
      | ok others =>
        constructor
        · intro done
          cases done
          exact ⟨others, rfl, rfl⟩
        · intro ⟨_, same, whole⟩
          cases same
          exact congrArg Except.ok whole
  | case8 state offset finished =>
    rw [Nat.sub_eq_zero_of_le (Nat.not_lt.mp finished), List.range'_zero, List.map_nil]
    constructor
    · intro done
      cases done
      rfl
    · intro done
      rw [List.map_eq_nil_iff.mp done.symm]

/-- The page of some byte of the range. -/
def Touches (address : U32) (length page : Nat) : Prop :=
  ∃ index < length, (address.toNat + index) / 4096 = page

/-- The page translates to a page that is no device, where devices are rejected, and that can be
read. -/
def Readable (frames : Nat → Except UcError Nat) (memory : PhysicalPages) (rejectDevices : Bool)
    (page : Nat) : Prop :=
  ∃ frame, frames page = .ok frame ∧ (rejectDevices = true → devicePage frame = false) ∧
    (memory.page frame).isSome = true

theorem translatedByte_isSome {rejectDevices : Bool} {position : Nat} :
    (translatedByte frames memory rejectDevices position).isSome = true ↔
      position < 2 ^ 32 ∧ Readable frames memory rejectDevices (position / 4096) := by
  by_cases inside : position < 2 ^ 32
  · rw [and_iff_right inside, Readable]
    cases mapped : frames (position / 4096) with
    | error error =>
      rw [translatedByte_fault mapped]
      constructor
      · intro some
        cases some
      · intro ⟨_, same, _⟩
        cases same
    | ok frame =>
      rw [translatedByte_of_frame inside mapped]
      by_cases device : rejectDevices = true ∧ devicePage frame = true
      · rw [if_pos device]
        constructor
        · intro some
          cases some
        · intro ⟨_, same, plain, _⟩
          cases same
          rw [plain device.1] at device
          cases device.2
      · rw [if_neg device, Option.isSome_map]
        constructor
        · intro readable
          refine ⟨frame, rfl, fun rejects => ?_, readable⟩
          exact Bool.eq_false_iff.mpr fun found => device ⟨rejects, found⟩
        · intro ⟨_, same, _, readable⟩
          cases same
          exact readable
  · rw [translatedByte_beyond (Nat.not_lt.mp inside)]
    constructor
    · intro some
      cases some
    · intro both
      exact absurd both.1 inside

theorem translatedByte_eq_some {rejectDevices : Bool} {position : Nat} {value : U8}
    (found : translatedByte frames memory rejectDevices position = some value) :
    ∃ physical, translate frames position = .ok physical ∧ memory.byte physical = some value := by
  have readable := translatedByte_isSome.mp (Option.isSome_iff_exists.mpr ⟨value, found⟩)
  obtain ⟨inside, frame, mapped, plain, _⟩ := readable
  rw [translatedByte_of_frame inside mapped, if_neg] at found
  · refine ⟨frame * 4096 + position % 4096, ?_, ?_⟩
    · rw [translate, mapped]
      rfl
    · rw [PhysicalPages.byte, frame_of_physical, Nat.mul_add_mod_self_right, Nat.mod_mod]
      exact found
  · intro both
    rw [plain both.1] at both
    cases both.2

/-- A read through the translation succeeds exactly where the range ends by 2^32 and every page of
it can be read, and then returns the physical bytes its addresses translate to. -/
theorem readTranslatedMemory_bytewise (answers : engine.Answers protection frames memory kept)
    {state : State} (held : kept state) (address : U32) (length : Nat) (rejectDevices : Bool) :
    ((∃ bytes, (engine.readTranslatedMemory address length protection rejectDevices state).1 =
        .ok bytes) ↔
      address.toNat + length ≤ 2 ^ 32 ∧
        ∀ page, Touches address length page → Readable frames memory rejectDevices page) ∧
    ∀ bytes, (engine.readTranslatedMemory address length protection rejectDevices state).1 =
        .ok bytes →
      bytes.length = length ∧ ∀ index, (bound : index < bytes.length) →
        ∃ physical, translate frames (address.toNat + index) = .ok physical ∧
          memory.byte physical = some bytes[index] := by
  have read (bytes : List U8) := readTranslatedFrom_eq_ok answers address length rejectDevices
    state 0 held bytes
  rw [Nat.add_zero, Nat.sub_zero] at read
  simp only [readTranslatedMemory, read]
  constructor
  · rw [exists_map_some]
    constructor
    · intro readable
      have each (index : Nat) (bound : index < length) :=
        translatedByte_isSome.mp
          (readable (address.toNat + index) (List.mem_range'_1.mpr (by omega)))
      constructor
      · rcases Nat.eq_zero_or_pos length with rfl | positive
        · exact address.isLt.le
        · have last := (each (length - 1) (by omega)).1
          omega
      · intro page ⟨index, bound, same⟩
        exact same ▸ (each index bound).2
    · intro ⟨fits, readable⟩ position member
      obtain ⟨low, high⟩ := List.mem_range'_1.mp member
      refine translatedByte_isSome.mpr ⟨by omega, readable _ ⟨position - address.toNat, by omega, ?_⟩⟩
      rw [Nat.add_sub_cancel' low]
  · intro bytes same
    have long := congrArg List.length same
    rw [List.length_map, List.length_map, List.length_range'] at long
    refine ⟨long.symm, fun index bound => ?_⟩
    have cell := congrArg (·[index]?) same
    have inside : index < length := long ▸ bound
    simp only [List.getElem?_map, List.getElem?_eq_getElem bound,
      List.getElem?_range' inside, Option.map_some, Nat.one_mul] at cell
    exact translatedByte_eq_some (Option.some.inj cell)

/-- The first page of zero-filled RAM, and nothing else. -/
def zeroPage : PhysicalPages where
  page number := if number = 0x4_0000 then some fun _ => 0 else none
  inside number readable := by
    split at readable
    · rename_i same
      exact same ▸ by decide
    · cases readable

/-- Unicorn with translation off over that page. -/
def identity : ReadEngine Unit where
  vmemTranslate _ address _ := (.ok address.toNat, ())
  memRead _ address length :=
    if address / 4096 = 0x4_0000 then (.ok (window (fun _ => 0) (address % 4096) length), ())
    else (.error (.other 6), ())

theorem identity_answers : identity.Answers .read .ok zeroPage fun _ => True where
  translates _ address _ := by
    exact congrArg Except.ok (Nat.div_add_mod' address.toNat 4096).symm
  reads _ frame offset length _ positive within := by
    have page : (frame * 4096 + offset) / 4096 = frame := by omega
    have rest : (frame * 4096 + offset) % 4096 = offset := by omega
    rw [zeroPage, identity]
    dsimp only
    rw [page, rest]
    by_cases first : frame = 0x4_0000
    · rw [if_pos first, if_pos first]
    · rw [if_neg first, if_neg first]
      exact ⟨_, rfl⟩
  keptTranslating _ _ _ := trivial
  keptReading _ _ _ _ := trivial

/-- Eight bytes from the start of RAM, with translation off. -/
theorem readTranslatedMemory_ram :
    ((∃ bytes, (identity.readTranslatedMemory 0x4000_0000 8 .read true ()).1 = .ok bytes) ↔
      (0x4000_0000 : U32).toNat + 8 ≤ 2 ^ 32 ∧
        ∀ page, Touches 0x4000_0000 8 page → Readable .ok zeroPage true page) ∧
    ∀ bytes, (identity.readTranslatedMemory 0x4000_0000 8 .read true ()).1 = .ok bytes →
      bytes.length = 8 ∧ ∀ index, (bound : index < bytes.length) →
        ∃ physical, translate .ok ((0x4000_0000 : U32).toNat + index) = .ok physical ∧
          zeroPage.byte physical = some bytes[index] :=
  readTranslatedMemory_bytewise identity_answers trivial 0x4000_0000 8 true

end ReadEngine

/-! ### The backend's own loop -/

namespace UnicornBackend

variable (inspector : Inspector)

/-- The backend as an engine: lookups through the virtual-TLB callback, reads with their device
callbacks. -/
def readEngine : ReadEngine UnicornBackend where
  vmemTranslate backend address memoryType :=
    let (entry, backend) := backend.virtualTlbCallback address memoryType
    match entry with
    | some (physical, _) => (.ok physical.get.toNat, backend)
    | none => (.error inspector.translateFailure, backend)
  memRead backend address length :=
    let (reads, result) := inspector.memRead backend.machine ⟨BitVec.ofNat 32 address⟩ length
    (result, backend.emulate (reads.map fun (offset, size) => .mmioRead offset size))

theorem ofNat_toNat_address (physical : PhysicalAddress) :
    (⟨BitVec.ofNat 32 physical.get.toNat⟩ : PhysicalAddress) = physical := by
  rw [BitVec.ofNat_toNat, BitVec.setWidth_eq]

theorem readEngine_translates (backend : UnicornBackend) (address : U32) (memoryType : MemType) :
    backend.vmemTranslate inspector address memoryType =
      (((readEngine inspector).vmemTranslate backend address memoryType).1.mapError .unicorn |>.map
        fun physical => ⟨BitVec.ofNat 32 physical⟩,
        ((readEngine inspector).vmemTranslate backend address memoryType).2) ∧
      ∀ physical, ((readEngine inspector).vmemTranslate backend address memoryType).1 = .ok physical →
        physical < 2 ^ 32 := by
  rw [vmemTranslate, readEngine]
  dsimp only
  generalize backend.virtualTlbCallback address memoryType = looked
  obtain ⟨entry, after⟩ := looked
  cases entry with
  | none =>
    refine ⟨rfl, fun physical done => ?_⟩
    cases done
  | some entry =>
    refine ⟨?_, fun physical done => ?_⟩
    · dsimp only [Except.mapError, Except.map]
      rw [ofNat_toNat_address]
    · cases done
      exact entry.1.get.isLt

theorem readEngine_reads (backend : UnicornBackend) (physical length : Nat) :
    backend.readPhysicalMemory inspector ⟨BitVec.ofNat 32 physical⟩ length =
      (((readEngine inspector).memRead backend physical length).1.mapError .unicorn,
        ((readEngine inspector).memRead backend physical length).2) :=
  rfl

/-- The loop over the backend is the generic one: translated addresses have 32 bits. -/
theorem readTranslatedFrom_eq (address : U32) (length : Nat) (memoryType : MemType)
    (rejectDevices : Bool) (backend : UnicornBackend) (offset : Nat) :
    readTranslatedFrom inspector address length memoryType rejectDevices backend offset =
      (readEngine inspector).readTranslatedFrom address length memoryType rejectDevices backend
        offset := by
  fun_induction ReadEngine.readTranslatedFrom (readEngine inspector) address length memoryType
    rejectDevices backend offset with
  | case1 backend offset unfinished wide =>
    rw [readTranslatedFrom, if_pos unfinished, if_pos (wide.trans (Nat.le_add_left _ _))]
  | case2 backend offset unfinished narrow wraps =>
    rw [readTranslatedFrom, if_pos unfinished, if_pos wraps]
  | case3 backend offset unfinished narrow fits virtualAddress error after translated =>
    have looked := (readEngine_translates inspector backend virtualAddress memoryType).1
    rw [translated] at looked
    rw [readTranslatedFrom, if_pos unfinished, if_neg fits]
    dsimp only
    rw [looked]
    rfl
  | case4 backend offset unfinished narrow fits virtualAddress physical after translated wide =>
    have small := (readEngine_translates inspector backend virtualAddress memoryType).2 physical
      (congrArg Prod.fst translated)
    exact absurd small (Nat.not_lt.mpr wide)
  | case5 backend offset unfinished narrow fits virtualAddress physical after translated small
      device =>
    have looked := (readEngine_translates inspector backend virtualAddress memoryType).1
    rw [translated] at looked
    rw [readTranslatedFrom, if_pos unfinished, if_neg fits]
    dsimp only
    rw [looked]
    dsimp only [Except.mapError, Except.map]
    rw [if_pos device]
  | case6 backend offset unfinished narrow fits virtualAddress count physical middle translated small
      plain error after read =>
    have looked := (readEngine_translates inspector backend virtualAddress memoryType).1
    have filled := readEngine_reads inspector middle physical count
    rw [translated] at looked
    rw [read] at filled
    rw [readTranslatedFrom, if_pos unfinished, if_neg fits]
    dsimp only
    rw [looked]
    dsimp only [Except.mapError, Except.map]
    rw [if_neg plain, filled]
    rfl
  | case7 backend offset unfinished narrow fits virtualAddress count physical middle translated small
      plain piece after read rest last recursed ih =>
    have looked := (readEngine_translates inspector backend virtualAddress memoryType).1
    have filled := readEngine_reads inspector middle physical count
    rw [translated] at looked
    rw [read] at filled
    rw [readTranslatedFrom, if_pos unfinished, if_neg fits]
    dsimp only
    rw [looked]
    dsimp only [Except.mapError, Except.map]
    rw [if_neg plain, filled]
    dsimp only [Except.mapError]
    rw [ih, recursed]
  | case8 backend offset finished =>
    rw [readTranslatedFrom, if_neg finished]

end UnicornBackend

end Minemu.Unicorn

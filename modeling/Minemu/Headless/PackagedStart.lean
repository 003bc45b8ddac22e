import Minemu.Headless.StartMemory
import Minemu.Image.Packaged
import Minemu.Runtime.ServiceFiles

/-! From the ELF files to a running machine: a package that the runner is given is in the System ROM
of every start, and its reference boot hands over what was linked. -/

namespace Minemu.Headless

open Library Platform Minemu.Core Minemu.Image Minemu.Runtime

/-- Every start of a run shows its image in the System ROM. -/
theorem showsImage_start {bootRom : List U8} {image : SystemImage}
    {blockMediaPaths : Fin 2 → Option String} {instructionBatch : Option ℕ+}
    {ramPrefill : List RamPrefill} {executionDeadline : Option Nat} {inputs : List HeadlessInput}
    {config : RuntimeConfig} {files : HostFiles} {start : HostCalls} {fresh : Emulator}
    {machine : Machine}
    (configured : runtimeConfig bootRom image blockMediaPaths instructionBatch ramPrefill
      executionDeadline inputs = .ok config)
    (created : Emulator.new config (start.outcomes config.blockMediaPaths files) = .ok fresh)
    (starts : StartsFrom fresh files machine) : ShowsImage machine.memory image := by
  intro index
  have inside : index.val < 0x100_0000 := index.isLt
  have byte := byteAt_start configured created starts (0x800_0000 + index.val)
  have window : 0x800_0000 ≤ 0x800_0000 + index.val ∧ 0x800_0000 + index.val < 0x900_0000 := by
    omega
  have place : 0x800_0000 + index.val - 0x800_0000 = index.val := by omega
  rw [byteAt_systemRom machine.memory inside, startByte, if_neg (by omega), if_pos window,
    place] at byte
  exact Option.some.inj byte

/-- What is packaged with success boots: from the memory of every start of a run of it, the first or
that of a reset, the reference boot never fails. It hands over to the entry of the kernel ELF with
each of its segments where it was linked and the rest of RAM as it was, and from the boot info every
module is found in the ROM with its name, its entry and the bytes of its segments. -/
theorem packaged_start {ObjectError : Type}
    (fileParse : List U8 → Except ObjectError (ObjectFile ObjectError)) (kernel : List U8)
    (modules : List ModuleInput) (image : SystemImage)
    (built : build fileParse kernel modules = .ok image) (bootRom : List U8)
    (blockMediaPaths : Fin 2 → Option String) (instructionBatch : Option ℕ+)
    (ramPrefill : List RamPrefill) (executionDeadline : Option Nat) (inputs : List HeadlessInput)
    (config : RuntimeConfig)
    (configured : runtimeConfig bootRom image blockMediaPaths instructionBatch ramPrefill
      executionDeadline inputs = .ok config)
    (files : HostFiles) (start : HostCalls) (fresh : Emulator)
    (created : Emulator.new config (start.outcomes config.blockMediaPaths files) = .ok fresh)
    (machine : Machine) (starts : StartsFrom fresh files machine) :
    ∃ entry segments, parseElf fileParse kernel = .ok (entry, segments) ∧
      parse image.bytes = .ok image ∧
      ∃ plan after info, image.bootPlan = .ok plan ∧ plan.kernelEntryVaddr = ⟨entry⟩ ∧
        plan.apply PhysicalMemory.writeRange machine.memory = .ok after ∧
        Handoff fileParse segments modules machine.memory after info :=
  packaged_boot fileParse kernel modules image built machine.memory
    (showsImage_start configured created starts)

/-- The module of one word that is packaged with a kernel of one word. -/
def wordModule : PackedModule where
  name := Image.asBytes "init"
  entry := ⟨0x0040_0000⟩
  segments := [(⟨0, ⟨0x0040_0000⟩, 4, 4, 5⟩, [1, 0, 0, 0])]

theorem asBytes_init : Image.asBytes "init" ≠ [] := fun empty =>
  absurd (asBytes_injective (empty.trans (show [] = Image.asBytes "" from rfl))) (by decide)

theorem wordModule_packable : Packable ⟨0xc000_8000⟩ [wordKernel] [wordModule] := by
  refine ⟨⟨_, rfl⟩, ?_, rfl, ?_, List.nodup_singleton _⟩
  · rw [List.forall_mem_singleton]
    exact ⟨rfl, rfl⟩
  · rw [List.forall_mem_singleton]
    refine ⟨?_, rfl, asBytes_init, ?_⟩
    · rw [wordModule, List.forall_mem_singleton]
      exact ⟨rfl, rfl⟩
    · rw [wordModule, fromUtf8_asBytes]
      rfl

/-- Packaging it gives an image. -/
theorem wordModule_built :
    build elfParse (elfBytes 0xc000_8000 0) [⟨"init", elfBytes 0x0040_0000 1⟩] =
      .ok (packedImage ⟨0xc000_8000⟩ [wordKernel] [wordModule]) := by
  have short : laidOutSize [wordKernel] [wordModule] ≤ 0x100_0000 := by decide
  have kernel : sortOn (fun segment : KernelSegment × List U8 =>
      segment.1.virtualAddress.get.toNat) [wordKernel] = [wordKernel] := List.mergeSort_singleton _
  have modules : sortOn nameKey [wordModule] = [wordModule] := List.mergeSort_singleton _
  have kernelParsed : parseElf elfParse (elfBytes 0xc000_8000 0) =
      .ok (0xc000_8000, [⟨0xc000_8000, [0, 0, 0, 0], 4, 5⟩]) := by
    rw [parseElf, elfParse, if_pos rfl]
    rfl
  have moduleParsed : parseElf elfParse (elfBytes 0x0040_0000 1) =
      .ok (0x0040_0000, [⟨0x0040_0000, [1, 0, 0, 0], 4, 5⟩]) := by
    rw [parseElf, elfParse, if_neg (by decide), if_pos rfl]
    rfl
  have packed : packModule elfParse ⟨"init", elfBytes 0x0040_0000 1⟩ = .ok wordModule := by
    refine bind_eq_ok.mpr ⟨(), rfl, bind_eq_ok.mpr ⟨_, moduleParsed, bind_eq_ok.mpr
      ⟨wordModule.segments, rfl, ?_⟩⟩⟩
    rw [show sortOn (fun segment : ModuleSegment × List U8 =>
      segment.1.virtualAddress.get.toNat) wordModule.segments = wordModule.segments from
        List.mergeSort_singleton _]
    rfl
  refine (build_eq_ok elfParse).mpr ⟨0xc000_8000, [⟨0xc000_8000, [0, 0, 0, 0], 4, 5⟩], [wordKernel],
    [wordModule], ?_, rfl, ?_, .cons packed .nil, List.nodup_singleton _, ?_⟩
  · exact kernelParsed
  · rw [kernel]
    rfl
  · rw [kernel, modules]
    exact buildImage_packed wordModule_packable short

/-- A boot ROM of its full size. -/
def blankRom : List U8 := List.replicate 0x1_0000 0

/-- A run of an image that fits starts. -/
theorem exists_start {image : SystemImage} (short : image.bytes.length ≤ 0x100_0000)
    (files : HostFiles) : ∃ config fresh,
      runtimeConfig blankRom image (fun _ => none) none [] none [] = .ok config ∧
        Emulator.new config (willing.outcomes config.blockMediaPaths files) = .ok fresh := by
  have whole : blankRom.length ≤ 0x1_0000 := List.length_replicate.le
  have roms := withRoms_eq_ok.mpr ⟨whole, short, rfl⟩
  have configured : runtimeConfig blankRom image (fun _ => none) none [] none [] = .ok (newConfig
      (.new { PhysicalMemory.empty with
        bootRom := fun index => blankRom[index.val]?.getD 0
        systemRom := fun index => image.bytes[index.val]?.getD 0 } 4096)
      MemRegion.bootRom.base.get) := by
    rw [runtimeConfig, roms]
    rfl
  exact ⟨_, _, configured, rfl⟩

set_option maxRecDepth 8000 in
theorem packaged_start_words : ∃ image, ∃ fresh : Emulator, ∃ entry segments, ∃ plan : BootPlan,
    ∃ after info,
      build elfParse (elfBytes 0xc000_8000 0) [⟨"init", elfBytes 0x0040_0000 1⟩] = .ok image ∧
      parseElf elfParse (elfBytes 0xc000_8000 0) = .ok (entry, segments) ∧
      plan.apply PhysicalMemory.writeRange fresh.backend.machine.memory = .ok after ∧
      Handoff elfParse segments [⟨"init", elfBytes 0x0040_0000 1⟩] fresh.backend.machine.memory
        after info := by
  have short : laidOutSize [wordKernel] [wordModule] ≤ 0x100_0000 := by decide
  have fits := (length_imageBytes ⟨0xc000_8000⟩ [wordKernel] [wordModule]).trans_le short
  generalize packed : packedImage ⟨0xc000_8000⟩ [wordKernel] [wordModule] = image
  have built : build elfParse (elfBytes 0xc000_8000 0) [⟨"init", elfBytes 0x0040_0000 1⟩] =
    .ok image := wordModule_built.trans (congrArg Except.ok packed)
  have small : image.bytes.length ≤ 0x100_0000 := packed ▸ fits
  obtain ⟨config, fresh, configured, created⟩ := exists_start small emptySectors
  obtain ⟨entry, segments, parsed, -, plan, after, info, -, -, applied, handed⟩ :=
    packaged_start elfParse _ _ image built blankRom _ none [] none [] config configured
      emptySectors willing fresh created _ .first
  exact ⟨image, fresh, entry, segments, plan, after, info, built, parsed, applied, handed⟩

end Minemu.Headless

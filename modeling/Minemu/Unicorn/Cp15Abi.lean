import Minemu.Core.Translation
import Minemu.Unicorn.DeviceFault
import Minemu.Unicorn.ExceptionEntry

/-! Coprocessor 15 against the platform ABI: the table of supported operations, and what the
adapter makes of every word that encodes a transfer to the coprocessor. -/

namespace Minemu.Unicorn

open Library Platform Minemu.Core

/-! ### The ABI -/

/-- The rows of the table. -/
inductive Cp15Row where
  | ttbr0
  | sctlr
  | tlbiall
  | vbar
  | dfsr
  | dfar
deriving DecidableEq

/-- The direction and the operands `p15, opc1, Rt, CRn, CRm, opc2` of a row, without Rt. -/
@[ext] structure Cp15Operands where
  mrc : Bool
  opc1 : BitVec 3
  crn : BitVec 4
  crm : BitVec 4
  opc2 : BitVec 3
deriving DecidableEq

namespace Cp15Row

def all : List Cp15Row := [ttbr0, sctlr, tlbiall, vbar, dfsr, dfar]

def operands : Cp15Row → Cp15Operands
  | ttbr0 => ⟨false, 0, 2, 0, 0⟩
  | sctlr => ⟨false, 0, 1, 0, 0⟩
  | tlbiall => ⟨false, 0, 8, 7, 0⟩
  | vbar => ⟨false, 0, 12, 0, 0⟩
  | dfsr => ⟨true, 0, 5, 0, 0⟩
  | dfar => ⟨true, 0, 6, 0, 0⟩

/-- The values of Rt a row takes: a page of RAM for TTBR0, a multiple of 32 for VBAR. -/
def Accepts (row : Cp15Row) (value : U32) : Prop :=
  match row with
  | ttbr0 => value.toNat % 4096 = 0 ∧ 0x4000_0000 ≤ value.toNat ∧ value.toNat + 4096 ≤ 0x4400_0000
  | vbar => value.toNat % 32 = 0
  | _ => True

instance (row : Cp15Row) (value : U32) : Decidable (row.Accepts value) :=
  match row with
  | ttbr0 => inferInstanceAs (Decidable (_ ∧ _))
  | vbar => inferInstanceAs (Decidable (_ = _))
  | sctlr | tlbiall | dfsr | dfar => inferInstanceAs (Decidable True)

/-- The effect of a row. The walker caches no translation, so TLBIALL is left to the engine. -/
def effect (row : Cp15Row) (value : U32) (rt : Register) (backend : UnicornBackend) :
    UnicornBackend :=
  let mmu := backend.machine.mmu
  let setMmu (mmu : Mmu) : UnicornBackend := { backend with machine := { backend.machine with mmu } }
  match row with
  | ttbr0 => setMmu { mmu with ttbr0 := ⟨value⟩ }
  | sctlr => setMmu { mmu with enabled := value.getLsbD 0 }
  | tlbiall => backend
  | vbar => setMmu { mmu with vectorBase := ⟨value⟩ }
  | dfsr => backend.setRegister rt (mmu.lastFault.elim 0 fun fault => fault.status.raw)
  | dfar => backend.setRegister rt (mmu.lastFault.elim 0 fun fault => fault.address.get)

end Cp15Row

/-- Whether a condition field passes on the flags of CPSR: the upper three bits choose a test,
the lowest one inverts it. -/
def conditionPassed (condition : BitVec 4) (cpsr : U32) : Bool :=
  let n := cpsr.getLsbD 31
  let z := cpsr.getLsbD 30
  let c := cpsr.getLsbD 29
  let v := cpsr.getLsbD 28
  let test := match condition.toNat / 2 with
    | 0 => z
    | 1 => c
    | 2 => n
    | 3 => v
    | 4 => c && !z
    | 5 => n == v
    | 6 => n == v && !z
    | _ => true
  if condition.getLsbD 0 then !test else test

/-- Whether a CPSR is in one of the privileged modes the machine supports. -/
def privileged (cpsr : U32) : Bool :=
  [CpuMode.interrupt, .supervisor, .abort, .undefined].any fun mode =>
    cpsr &&& 0x1f#32 = modeBits mode

/-- What the ABI asks of a transfer. -/
inductive Cp15Outcome where
  | noOp
  | take (row : Cp15Row)
  | undefined
deriving DecidableEq

/-- The fields of a word. -/
structure Cp15Word where
  condition : BitVec 4
  operands : Cp15Operands
  rt : BitVec 4

/-- A word that encodes `MCR` or `MRC` to coprocessor 15, or their unconditional forms. -/
def IsCp15 (word : U32) : Prop :=
  word.extractLsb' 24 4 = 0b1110#4 ∧ word.extractLsb' 8 4 = 0b1111#4 ∧ word.getLsbD 4 = true

def Cp15Word.ofWord (word : U32) : Cp15Word where
  condition := word.extractLsb' 28 4
  operands := ⟨word.getLsbD 20, word.extractLsb' 21 3, word.extractLsb' 16 4,
    word.extractLsb' 0 4, word.extractLsb' 5 3⟩
  rt := word.extractLsb' 12 4

/-- The register a field of four bits names. -/
def registerOf (index : BitVec 4) : Register :=
  if low : index.toNat < 13 then .low ⟨index.toNat, low⟩
  else match index.toNat with
    | 13 => .sp
    | 14 => .lr
    | _ => .pc

/-- The table and the rules around it: unconditional forms and unlisted operations are
undefined, and so is everything outside the privileged modes. -/
def abiOutcome (word cpsr value : U32) : Cp15Outcome :=
  let fields := Cp15Word.ofWord word
  if fields.condition = 0b1111#4 then .undefined
  else if !conditionPassed fields.condition cpsr then .noOp
  else if !privileged cpsr then .undefined
  else match Cp15Row.all.find? fun row => row.operands = fields.operands with
    | none => .undefined
    | some row => if row.Accepts value then .take row else .undefined

/-! ### The decoder against the ABI -/

theorem bit_bne (x : U32) {bit : Nat} (inside : bit < 32) :
    (x &&& (1#32 <<< bit) != 0#32) = x.getLsbD bit := by
  rw [Bool.eq_iff_iff, bne_iff_ne]
  exact and_bit_ne_zero x inside

/-- The conditions, but for the unconditional one, which never holds here. -/
theorem conditionHolds_eq {code : U32} {condition : BitVec 4}
    (same : code.toNat = condition.toNat) (cpsr : U32) :
    conditionHolds code cpsr = (conditionPassed condition cpsr && condition != 0b1111#4) := by
  have unconditional : (condition != 0b1111#4) = (condition.toNat != 15) := by
    rw [Bool.eq_iff_iff, bne_iff_ne, bne_iff_ne]
    exact not_congr ⟨fun this => by rw [this]; rfl, fun this => BitVec.eq_of_toNat_eq this⟩
  have lowest : condition.getLsbD 0 = decide (condition.toNat % 2 = 1) := by
    rw [← BitVec.testBit_toNat, Nat.testBit_zero]
  unfold conditionHolds conditionPassed
  rw [bit_bne cpsr (by decide), bit_bne cpsr (by decide), bit_bne cpsr (by decide),
    bit_bne cpsr (by decide), unconditional, lowest, same]
  have bound := condition.isLt
  generalize condition.toNat = number at bound ⊢
  generalize cpsr.getLsbD 31 = n
  generalize cpsr.getLsbD 30 = z
  generalize cpsr.getLsbD 29 = c
  generalize cpsr.getLsbD 28 = v
  interval_cases number <;> revert n z c v <;> decide

theorem cp15IsPrivileged_eq (cpsr : U32) : cp15IsPrivileged cpsr = privileged cpsr := by
  unfold cp15IsPrivileged privileged
  generalize cpsr &&& 0x1f#32 = mode
  have named (number : U32) : (mode = number) ↔ mode.toNat = number.toNat :=
    ⟨fun same => by rw [same], BitVec.eq_of_toNat_eq⟩
  simp only [List.any_cons, List.any_nil, modeBits, named]
  split <;> simp_all

theorem armRegister_eq {code : U32} {index : BitVec 4} (same : code.toNat = index.toNat) :
    armRegister code = some (registerOf index) := by
  have bound := index.isLt
  unfold armRegister registerOf
  by_cases low : index.toNat < 13
  · rw [dif_pos (same ▸ low), dif_pos low]
    simp only [same]
  · rw [dif_neg (same ▸ low), dif_neg low, same]
    generalize index.toNat = number at bound low ⊢
    interval_cases number <;> rfl

/-- The class of a word is decided by three of its fields. -/
theorem isCp15_iff (word : U32) : IsCp15 word ↔
    word &&& 0x0f00_0010#32 = 0x0e00_0010#32 ∧ (word >>> 8) &&& 0x0f#32 = 15#32 := by
  have coprocessor : (word >>> 8) &&& 0x0f#32 = 15#32 ↔ word.extractLsb' 8 4 = 0b1111#4 := by
    rw [← BitVec.toNat_inj, ← BitVec.toNat_inj]
    exact Eq.congr (toNat_shift_and_low word 8 (k := 4) (by decide)) rfl
  have class_ : word &&& 0x0f00_0010#32 = 0x0e00_0010#32 ↔
      word.extractLsb' 24 4 = 0b1110#4 ∧ word.getLsbD 4 = true := by
    constructor
    · intro masked
      have bit (index : Nat) := congrArg (BitVec.getLsbD · index) masked
      refine ⟨BitVec.eq_of_getLsbD_eq fun index inside => ?_, by simpa using bit 4⟩
      have here := bit (24 + index)
      interval_cases index <;> simpa using here
    · intro both
      obtain ⟨high, register⟩ := both
      have bit (index : Nat) := congrArg (BitVec.getLsbD · index) high
      have zero : word[24] = false := by simpa using bit 0
      have one : word[25] = true := by simpa using bit 1
      have two : word[26] = true := by simpa using bit 2
      have three : word[27] = true := by simpa using bit 3
      refine BitVec.eq_of_getLsbD_eq fun index inside => ?_
      have fourth : word[4] = true := by simpa using register
      interval_cases index <;> simp [fourth, zero, one, two, three]
  rw [IsCp15, coprocessor, class_]
  exact ⟨fun all => ⟨⟨all.1, all.2.2⟩, all.2.1⟩, fun all => ⟨all.1.1, all.2, all.1.2⟩⟩

/-- What the decoder finds in a word of the class. -/
theorem decodeCp15_eq {word : U32} (class_ : IsCp15 word) : ∃ decoded,
    decodeCp15 word = some decoded ∧
      decoded.condition.toNat = (Cp15Word.ofWord word).condition.toNat ∧
      decoded.read = (Cp15Word.ofWord word).operands.mrc ∧
      decoded.rt = registerOf (Cp15Word.ofWord word).rt ∧
      decoded.crn.toNat = (Cp15Word.ofWord word).operands.crn.toNat ∧
      decoded.crm.toNat = (Cp15Word.ofWord word).operands.crm.toNat ∧
      decoded.opc1.toNat = (Cp15Word.ofWord word).operands.opc1.toNat ∧
      decoded.opc2.toNat = (Cp15Word.ofWord word).operands.opc2.toNat := by
  obtain ⟨masked, coprocessor⟩ := (isCp15_iff word).mp class_
  have register := armRegister_eq (toNat_shift_and_low word 12 (k := 4) (by decide))
  have top : word.toNat / 2 ^ 28 % 2 ^ 4 = word.toNat / 2 ^ 28 := Nat.mod_eq_of_lt (by omega)
  have low := toNat_shift_and_low word 0 (k := 4) (by decide)
  rw [BitVec.ushiftRight_zero] at low
  have class_ : ¬ (word &&& 0x0f00_0010#32 ≠ 0x0e00_0010#32 ∨
      (word >>> 8) &&& 0x0f#32 ≠ 15#32) := by
    rintro (other | other)
    · exact other masked
    · exact other coprocessor
  refine ⟨⟨word >>> 28, word &&& (1#32 <<< 20) != 0#32, registerOf (Cp15Word.ofWord word).rt,
    (word >>> 16) &&& 0x0f#32, word &&& 0x0f#32, (word >>> 21) &&& 0x07#32,
    (word >>> 5) &&& 0x07#32⟩, ?_, ?_, ?_, rfl, ?_, ?_, ?_, ?_⟩
  · rw [decodeCp15, if_neg class_]
    exact (congrArg (Option.map _) register).trans (Option.map_some ..)
  · simp only [Cp15Word.ofWord, BitVec.extractLsb'_toNat, BitVec.toNat_ushiftRight,
      Nat.shiftRight_eq_div_pow, top]
  · exact bit_bne word (by decide)
  · exact toNat_shift_and_low word 16 (k := 4) (by decide)
  · exact low
  · exact toNat_shift_and_low word 21 (k := 3) (by decide)
  · exact toNat_shift_and_low word 5 (k := 3) (by decide)

namespace Cp15Row

/-- What the adapter keeps of an accepted operation until the batch has ended. -/
def request (row : Cp15Row) (value : U32) (rt : Register) : PendingCp15 :=
  match row with
  | ttbr0 => .operation (.setTtbr0 ⟨value⟩)
  | sctlr => .operation (.setMmuEnabled (value.getLsbD 0))
  | tlbiall => .operation .invalidateAll
  | vbar => .operation (.setVectorBase ⟨value⟩)
  | dfsr => .readFaultStatus rt
  | dfar => .readFaultAddress rt

theorem mem_all (row : Cp15Row) : row ∈ all := by
  cases row <;> decide

theorem find_operands (row : Cp15Row) :
    all.find? (fun other => other.operands = row.operands) = some row := by
  cases row <;> rfl

theorem pendingOperation_ttbr0 (value pc : U32) :
    pendingOperation (Cp15Operation.ofTtbr0 value) pc =
      if ttbr0.Accepts value then .operation (.setTtbr0 ⟨value⟩) else .undefined pc := by
  have checked : Cp15Operation.ofTtbr0 value = .ok (.setTtbr0 ⟨value⟩) ↔ ttbr0.Accepts value :=
    (Translation.accepted_iff : Translation.Accepted { Mmu.new with ttbr0 := ⟨value⟩ } ↔ _)
  by_cases accepts : ttbr0.Accepts value
  · rw [checked.mpr accepts, if_pos accepts]
    rfl
  · rw [if_neg accepts]
    cases found : Cp15Operation.ofTtbr0 value with
    | error error => rfl
    | ok operation =>
      have same : operation = .setTtbr0 ⟨value⟩ := by
        unfold Cp15Operation.ofTtbr0 at found
        cases page : validatePageTablePage ⟨value⟩ with
        | error error =>
          rw [page] at found
          cases found
        | ok done =>
          rw [page] at found
          cases found
          rfl
      exact absurd (checked.mp (same ▸ found)) accepts

theorem pendingOperation_vbar (value pc : U32) :
    pendingOperation (Cp15Operation.ofVbar value) pc =
      if vbar.Accepts value then .operation (.setVectorBase ⟨value⟩) else .undefined pc := by
  have low : (value &&& 0x1f#32 != 0#32) = true ↔ ¬ vbar.Accepts value := by
    rw [bne_iff_ne, Ne, ← BitVec.toNat_inj]
    exact not_congr (Eq.congr (toNat_and_low value 5 (by decide)) rfl)
  unfold Cp15Operation.ofVbar
  by_cases accepts : vbar.Accepts value
  · rw [if_neg (fun refused => low.mp refused accepts), if_pos accepts]
    rfl
  · rw [if_pos (low.mpr accepts), if_neg accepts]
    rfl

end Cp15Row

/-- The dispatch on the operands is a search in the table. -/
theorem cp15Pending_eq (cpu : Cpu) {decoded : DecodedCp15} {operands : Cp15Operands} (pc : U32)
    (mrc : decoded.read = operands.mrc) (crn : decoded.crn.toNat = operands.crn.toNat)
    (crm : decoded.crm.toNat = operands.crm.toNat) (opc1 : decoded.opc1.toNat = operands.opc1.toNat)
    (opc2 : decoded.opc2.toNat = operands.opc2.toNat) :
    cp15Pending cpu decoded pc =
      match Cp15Row.all.find? fun row => row.operands = operands with
      | none => .undefined pc
      | some row => if row.Accepts (cpu.read decoded.rt) then
          row.request (cpu.read decoded.rt) decoded.rt else .undefined pc := by
  have sctlr (value : U32) : Cp15Operation.ofSctlr value = .setMmuEnabled (value.getLsbD 0) :=
    congrArg Cp15Operation.setMmuEnabled (bit_bne value (show 0 < 32 by decide))
  have named (row : Cp15Row) (read : decoded.read = row.operands.mrc)
      (n : decoded.crn.toNat = row.operands.crn.toNat)
      (m : decoded.crm.toNat = row.operands.crm.toNat)
      (one : decoded.opc1.toNat = row.operands.opc1.toNat)
      (two : decoded.opc2.toNat = row.operands.opc2.toNat) :
      Cp15Row.all.find? (fun other => other.operands = operands) = some row := by
    have same : operands = row.operands :=
      Cp15Operands.ext (mrc.symm.trans read) (BitVec.eq_of_toNat_eq (opc1.symm.trans one))
        (BitVec.eq_of_toNat_eq (crn.symm.trans n)) (BitVec.eq_of_toNat_eq (crm.symm.trans m))
        (BitVec.eq_of_toNat_eq (opc2.symm.trans two))
    rw [same]
    exact row.find_operands
  unfold cp15Pending
  split
  · rename_i read n m one two
    rw [named .ttbr0 read n m one two, Cp15Row.pendingOperation_ttbr0]
    rfl
  · rename_i read n m one two
    rw [named .sctlr read n m one two, sctlr]
    rfl
  · rename_i read n m one two
    rw [named .tlbiall read n m one two]
    rfl
  · rename_i read n m one two
    rw [named .vbar read n m one two, Cp15Row.pendingOperation_vbar]
    rfl
  · rename_i read n m one two
    rw [named .dfsr read n m one two]
    rfl
  · rename_i read n m one two
    rw [named .dfar read n m one two]
    rfl
  · rename_i unlisted
    cases found : Cp15Row.all.find? fun row => row.operands = operands with
    | none => rfl
    | some row =>
      have same := (List.find?_eq_some_iff_append.mp found).1
      rw [decide_eq_true_eq] at same
      subst same
      cases row <;> simp_all [Cp15Row.operands]

/-- Outside the unconditional forms, the trap of a word keeps what the ABI asks for. -/
theorem cp15Trap_eq (backend : UnicornBackend) (address : U32) {word : U32}
    (class_ : IsCp15 word) :
    backend.cp15Trap address word = { backend with
      pendingCp15 :=
        if (Cp15Word.ofWord word).condition = 0b1111#4 then backend.pendingCp15
        else match abiOutcome word backend.cpu.cpsr
            (backend.cpu.read (registerOf (Cp15Word.ofWord word).rt)) with
          | .noOp => backend.pendingCp15
          | .take row => some (row.request
              (backend.cpu.read (registerOf (Cp15Word.ofWord word).rt))
              (registerOf (Cp15Word.ofWord word).rt))
          | .undefined => some (.undefined address)
      cpu := backend.cpu.write .pc (address + 4#32) } := by
  obtain ⟨decoded, decodes, condition, mrc, rt, crn, crm, opc1, opc2⟩ := decodeCp15_eq class_
  have holds := conditionHolds_eq condition backend.cpu.cpsr
  have pending := cp15Pending_eq backend.cpu address mrc crn crm opc1 opc2
  rw [rt] at pending
  have cpsr : backend.cpu.read .cpsr = backend.cpu.cpsr := rfl
  unfold UnicornBackend.cp15Trap
  simp only [decodes, cpsr, holds, cp15IsPrivileged_eq, UnicornBackend.setRegister]
  congr 1
  by_cases unconditional : (Cp15Word.ofWord word).condition = 0b1111#4
  · simp [unconditional]
  · rw [if_neg unconditional, abiOutcome, if_neg unconditional]
    have real : ((Cp15Word.ofWord word).condition != 0b1111#4) = true := bne_iff_ne.mpr unconditional
    rw [real, Bool.and_true]
    cases conditionPassed (Cp15Word.ofWord word).condition backend.cpu.cpsr with
    | false => rfl
    | true =>
      cases privileged backend.cpu.cpsr with
      | false => rfl
      | true =>
        simp only [Bool.not_true, Bool.false_eq_true, ↓reduceIte, pending]
        cases Cp15Row.all.find? fun row => row.operands = (Cp15Word.ofWord word).operands with
        | none => rfl
        | some row =>
          simp only
          split <;> rfl

/-! ### The instruction in a batch -/

namespace UnicornBackend

/-- A backend inside a batch that nothing has stopped yet. -/
structure Quiet (backend : UnicornBackend) : Prop where
  callbackStop : backend.callbackStop = none
  pendingCp15 : backend.pendingCp15 = none
  pendingException : backend.pendingException = none
  deferredException : backend.deferredException = none

/-- The trap callback on a word, which stops the engine, and the end of the batch. -/
def cp15Batch (engine : Engine) (backend : UnicornBackend) (address word : U32)
    (tickDeadline : Option Nat) : BackendStop × UnicornBackend :=
  (backend.event (.code address 4 (some word))).finishBatch engine (.ok ()) tickDeadline

/-- The instructions the batch completed before, retired. -/
def before (backend : UnicornBackend) (address : U32) : UnicornBackend :=
  { backend.retire backend.executedInstructions with
    cpu := backend.cpu.write .pc (address + 4#32)
    executedInstructions := backend.executedInstructions + 1 }

/-- One more instruction, which takes one tick and goes on to the next address. -/
def retired (backend : UnicornBackend) (address : U32) : UnicornBackend :=
  { backend.before address with machine := (backend.before address).machine.advanceTicks 1 }

/-- What an undefined instruction does: its entry, now or at the tick the run may not pass yet. -/
def RaisesUndefined (backend : UnicornBackend) (address : U32)
    (result : BackendStop × UnicornBackend) : Prop :=
  result.2.machine.mmu = backend.machine.mmu ∧
    ((result.1 = .exception .undefined ∧
        result.2.cpu = ((backend.before address).enterException
          (.synchronous .undefined ⟨address⟩)).cpu) ∨
      (result.1 = .instructionBudget ∧
        result.2.deferredException = some (.undefined, ⟨address⟩)))

/-- The end of the batch is what the ABI asks for. -/
def Follows (engine : Engine) (backend : UnicornBackend) (address word : U32)
    (tickDeadline : Option Nat) (result : BackendStop × UnicornBackend) : Prop :=
  let rt := registerOf (Cp15Word.ofWord word).rt
  let value := backend.cpu.read rt
  match abiOutcome word backend.cpu.cpsr value with
  | .noOp => result = (backend.retired address).finishRun (.ok ()) tickDeadline
  | .take row =>
    let taken := row.effect value rt (backend.retired address)
    result.2 = taken ∧
      result.1 = if row = .tlbiall ∧ !(engine.flushTlb taken).isOk then .unicorn .arg
        else .cp15Boundary
  | .undefined => RaisesUndefined backend address result

variable {backend : UnicornBackend}

theorem mmu_retire (backend : UnicornBackend) (count : Nat) :
    (backend.retire count).machine.mmu = backend.machine.mmu := by
  induction count with
  | zero => rfl
  | succ count ih =>
    have last : (backend.retire (count + 1)).machine =
        (backend.retire count).machine.advanceTicks 1 :=
      Function.iterate_succ_apply' (fun machine : Machine => (machine.finishInstruction .completed).2)
        count backend.machine
    rw [last, mmu_advanceTicks, ih]

/-- No earlier check of the callback takes a word of the class. -/
theorem event_cp15 (backend : UnicornBackend) (address : U32) {word : U32} (class_ : IsCp15 word) :
    backend.event (.code address 4 (some word)) =
      backend.instructionCounterCallback.cp15Trap address word := by
  have low : word[24] = false := by
    simpa using congrArg (BitVec.getLsbD · 0) class_.1
  have breakpoint : decodeBreakpoint word = none := by
    unfold decodeBreakpoint
    refine if_pos fun same => ?_
    have bit := congrArg (BitVec.getLsbD · 24) same
    simp [low] at bit
  have call : word &&& 0x0f00_0000#32 ≠ 0x0f00_0000#32 := by
    intro same
    have bit := congrArg (BitVec.getLsbD · 24) same
    simp [low] at bit
  simp only [event, a32SynchronousTrapCallback, ne_eq, not_true_eq_false, ↓reduceIte, breakpoint,
    Option.filter_none, call, false_and]

/-- The batch after the trap of its last instruction. -/
def stopped (backend : UnicornBackend) (address : U32) (pendingCp15 : Option PendingCp15) :
    UnicornBackend :=
  { backend with
    executedInstructions := backend.executedInstructions + 1
    pendingCp15
    cpu := backend.cpu.write .pc (address + 4#32) }

theorem account_stopped (quiet : Quiet backend) (address : U32) (pending : Option PendingCp15) :
    (backend.stopped address pending).account =
      if pending.any isUndefinedCp15 then backend.before address else backend.retired address := by
  obtain ⟨machine, cpu, executed, stop, cp15, exception, deferred⟩ := backend
  obtain ⟨rfl, rfl, rfl, rfl⟩ := quiet
  have once := Function.iterate_succ_apply'
    (fun machine : Machine => (machine.finishInstruction .completed).2) executed machine
  simp only [account, completedInstructions, faultingInstruction, stopped, Option.isSome_none,
    Option.any_none, Bool.or_false, retired, before, retire]
  cases pending.any isUndefinedCp15 with
  | true => rfl
  | false =>
    simp only [Bool.toNat_false, Nat.sub_zero, once, Bool.false_eq_true, ↓reduceIte]
    rfl

theorem mmu_before (backend : UnicornBackend) (address : U32) :
    (backend.before address).machine.mmu = backend.machine.mmu :=
  backend.mmu_retire _

/-- An undefined instruction is entered, or deferred to the tick the run may not pass. -/
theorem raisesUndefined_before (backend : UnicornBackend) (address : U32)
    (tickDeadline : Option Nat) : RaisesUndefined backend address
      ((backend.before address).finishSynchronousException .undefined ⟨address⟩ tickDeadline) := by
  unfold finishSynchronousException
  split
  · have kept := mmu_finishInstruction (backend.before address).machine .completed
    exact ⟨kept.trans (backend.mmu_before address), .inr ⟨rfl, rfl⟩⟩
  · have kept : ((backend.before address).machine.finishInstruction
        (.synchronousException .undefined ⟨address⟩)).2.mmu = backend.machine.mmu :=
      (mmu_finishInstruction _ _).trans (backend.mmu_before address)
    have vector : ((backend.before address).machine.finishInstruction
        (.synchronousException .undefined ⟨address⟩)).2.mmu.vectorBase =
          (backend.before address).machine.mmu.vectorBase := by
      rw [kept, backend.mmu_before]
    simp only [finishInstruction, Machine.finishInstruction] at kept vector ⊢
    refine ⟨by rw [enterException_eq]; exact kept, .inl ⟨rfl, ?_⟩⟩
    rw [enterException_eq, enterException_eq]
    simp only [vector]

/-- An accepted operation takes its effect on the retired instruction. -/
theorem finishCp15_request (engine : Engine) (backend : UnicornBackend) (row : Cp15Row)
    (value : U32) (rt : Register) (tickDeadline : Option Nat) :
    backend.finishCp15 engine (row.request value rt) tickDeadline =
      (if row = .tlbiall ∧ !(engine.flushTlb (row.effect value rt backend)).isOk then .unicorn .arg
        else .cp15Boundary, row.effect value rt backend) := by
  cases row with
  | tlbiall =>
    simp only [finishCp15, Cp15Row.request, Cp15Row.effect, Mmu.applyCp15, true_and]
    split <;> rfl
  | ttbr0 | sctlr | vbar | dfsr | dfar => rfl

/-- What the trap of a word leaves for the end of the batch. -/
def leaves (backend : UnicornBackend) (address word : U32) : Option PendingCp15 :=
  let rt := registerOf (Cp15Word.ofWord word).rt
  let value := backend.cpu.read rt
  if (Cp15Word.ofWord word).condition = 0b1111#4 then none
  else match abiOutcome word backend.cpu.cpsr value with
    | .noOp => none
    | .take row => some (row.request value rt)
    | .undefined => some (.undefined address)

theorem event_stopped (quiet : Quiet backend) (address : U32) {word : U32}
    (class_ : IsCp15 word) : backend.event (.code address 4 (some word)) =
      backend.stopped address (backend.leaves address word) := by
  have idle : backend.instructionCounterCallback.pendingCp15 = none := quiet.pendingCp15
  rw [event_cp15 backend address class_, cp15Trap_eq _ address class_, idle]
  rfl

/-- The end of the batch, by what the trap left. -/
theorem finishBatch_stopped (engine : Engine) (quiet : Quiet backend) (address : U32)
    (pending : Option PendingCp15) (tickDeadline : Option Nat) :
    (backend.stopped address pending).finishBatch engine (.ok ()) tickDeadline =
      match pending with
      | none => (backend.stopped address none).account.finishRun (.ok ()) tickDeadline
      | some request => (backend.stopped address (some request)).account.finishCp15 engine request
          tickDeadline := by
  have stop : (backend.stopped address pending).callbackStop = none := quiet.callbackStop
  have exception : (backend.stopped address pending).pendingException = none :=
    quiet.pendingException
  unfold finishBatch
  rw [stop, exception]
  cases pending <;> rfl

theorem cp15Batch_retires (engine : Engine) (quiet : Quiet backend) (address : U32) {word : U32}
    (tickDeadline : Option Nat) (class_ : IsCp15 word) (idle : backend.leaves address word = none) :
    cp15Batch engine backend address word tickDeadline =
      (backend.retired address).finishRun (.ok ()) tickDeadline := by
  rw [cp15Batch, event_stopped quiet address class_, idle, finishBatch_stopped engine quiet,
    account_stopped quiet]
  rfl

/-- Words outside the unconditional forms follow the ABI. -/
theorem follows_conditional (engine : Engine) (quiet : Quiet backend) (address : U32) {word : U32}
    (tickDeadline : Option Nat) (class_ : IsCp15 word)
    (conditional : (Cp15Word.ofWord word).condition ≠ 0b1111#4) :
    Follows engine backend address word tickDeadline
      (cp15Batch engine backend address word tickDeadline) := by
  cases outcome : abiOutcome word backend.cpu.cpsr
      (backend.cpu.read (registerOf (Cp15Word.ofWord word).rt)) with
  | noOp =>
    have idle : backend.leaves address word = none := by
      simp only [leaves, if_neg conditional, outcome]
    simp only [Follows, outcome]
    exact cp15Batch_retires engine quiet address tickDeadline class_ idle
  | take row =>
    have request : backend.leaves address word =
        some (row.request (backend.cpu.read (registerOf (Cp15Word.ofWord word).rt))
          (registerOf (Cp15Word.ofWord word).rt)) := by
      simp only [leaves, if_neg conditional, outcome]
    have accepted : isUndefinedCp15 (row.request
        (backend.cpu.read (registerOf (Cp15Word.ofWord word).rt))
        (registerOf (Cp15Word.ofWord word).rt)) = false := by
      cases row <;> rfl
    simp only [Follows, outcome]
    rw [cp15Batch, event_stopped quiet address class_, request, finishBatch_stopped engine quiet]
    simp only [account_stopped quiet, Option.any_some, accepted, Bool.false_eq_true, ↓reduceIte,
      finishCp15_request, and_self]
  | undefined =>
    have refused : backend.leaves address word = some (.undefined address) := by
      simp only [leaves, if_neg conditional, outcome]
    simp only [Follows, outcome]
    rw [cp15Batch, event_stopped quiet address class_, refused, finishBatch_stopped engine quiet]
    simp only [account_stopped quiet, Option.any_some, isUndefinedCp15, ↓reduceIte]
    exact backend.raisesUndefined_before address tickDeadline

/-- A batch that only its budget ends raises no undefined instruction. -/
theorem finishRun_ne_undefined (backend : UnicornBackend) (tickDeadline : Option Nat) :
    (backend.finishRun (.ok ()) tickDeadline).1 ≠ .exception .undefined ∧
      (backend.finishRun (.ok ()) tickDeadline).2.deferredException =
        backend.deferredException := by
  have delivered : (backend.deliverIrq.1 = none ∨
      backend.deliverIrq.1 = some (.exception .interrupt)) ∧
        backend.deliverIrq.2.deferredException = backend.deferredException := by
    unfold deliverIrq
    split
    · exact ⟨.inl rfl, rfl⟩
    · simp only
      split
      · exact ⟨.inl rfl, rfl⟩
      · exact ⟨.inr rfl, rfl⟩
  unfold finishRun
  cases backend.deadlineReached tickDeadline with
  | true => exact ⟨by simp, rfl⟩
  | false =>
    obtain ⟨none | some, deferred⟩ := delivered
    · simp [none, deferred]
    · simp [some, deferred]

/-- An unconditional form retires without an exception. -/
theorem unconditional_retires (engine : Engine) (quiet : Quiet backend) (address : U32) {word : U32}
    (tickDeadline : Option Nat) (class_ : IsCp15 word)
    (unconditional : (Cp15Word.ofWord word).condition = 0b1111#4) :
    ¬ RaisesUndefined backend address (cp15Batch engine backend address word tickDeadline) := by
  have idle : backend.leaves address word = none := by
    simp only [leaves, if_pos unconditional]
  have calm := (backend.retired address).finishRun_ne_undefined tickDeadline
  have fresh : (backend.retired address).deferredException = none := quiet.deferredException
  rw [cp15Batch_retires engine quiet address tickDeadline class_ idle]
  rintro ⟨_, ⟨stop, _⟩ | ⟨_, deferred⟩⟩
  · exact calm.1 stop
  · rw [calm.2, fresh] at deferred
    cases deferred

/-- A word of the class follows the ABI if and only if it is not an unconditional form: those
never pass their condition, so they retire as no-ops and raise no exception. -/
theorem cp15_follows_abi_iff (engine : Engine) (backend : UnicornBackend) (address word : U32)
    (tickDeadline : Option Nat) (quiet : Quiet backend) (class_ : IsCp15 word) :
    Follows engine backend address word tickDeadline
      (cp15Batch engine backend address word tickDeadline) ↔
      (Cp15Word.ofWord word).condition ≠ 0b1111#4 := by
  constructor
  · intro follows unconditional
    refine unconditional_retires engine quiet address tickDeadline class_ unconditional ?_
    simpa only [Follows, abiOutcome, if_pos unconditional] using follows
  · exact follows_conditional engine quiet address tickDeadline class_

/-- An engine whose every call succeeds and does nothing. -/
def inertEngine : Engine where
  setExits _ _ := .ok ()
  flushTlb _ := .ok ()
  emuStart _ _ _ _ := ([], .ok ())

theorem quiet_new : Quiet (.new .default) := ⟨rfl, rfl, rfl, rfl⟩

theorem cp15_follows_abi_ttbr0 : Follows inertEngine (.new .default) 0x8000 0xee02_0f10 none
    (cp15Batch inertEngine (.new .default) 0x8000 0xee02_0f10 none) :=
  (cp15_follows_abi_iff inertEngine (.new .default) 0x8000 0xee02_0f10 none quiet_new
    (by unfold IsCp15; decide)).mpr (by decide)

/-- `MCR2 p15, 0, R0, c2, c0, 0` in supervisor mode is to raise an undefined instruction, and
retires. -/
theorem mcr2_not_undefined :
    abiOutcome 0xfe02_0f10 (UnicornBackend.new .default).cpu.cpsr
        ((UnicornBackend.new .default).cpu.read (.low 0)) = .undefined ∧
      ¬ Follows inertEngine (.new .default) 0x8000 0xfe02_0f10 none
        (cp15Batch inertEngine (.new .default) 0x8000 0xfe02_0f10 none) := by
  have outcome : abiOutcome 0xfe02_0f10 (UnicornBackend.new .default).cpu.cpsr
      ((UnicornBackend.new .default).cpu.read (.low 0)) = .undefined := by decide
  refine ⟨outcome, fun follows => ?_⟩
  exact unconditional_retires inertEngine quiet_new 0x8000 none (by unfold IsCp15; decide)
    (by decide) follows

end UnicornBackend

end Minemu.Unicorn

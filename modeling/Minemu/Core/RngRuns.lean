import Minemu.Core.Peripherals
import Minemu.Library.Runs
import Minemu.Library.XorShift

/-! Runs of the RNG: reads and writes in any order never reach zero, and its step loses nothing. -/

namespace Minemu.Core.Rng

open Library Platform

/-- What the guest does to the RNG. -/
inductive Action where
  | read (register : RngRegister)
  | write (register : RngRegister) (value : U32)

def act (rng : Rng) : Action → Rng
  | .read register => (rng.read register).2
  | .write register value => rng.update register value

/-- The state after a DATA read. -/
def dataStep (state : U32) : U32 :=
  xorShift (· <<< 5) (xorShift (· >>> 17) (xorShift (· <<< 13) state))

theorem nextU32_eq (rng : Rng) :
    rng.nextU32 = (dataStep rng.state, { rng with state := dataStep rng.state }) := rfl

theorem dataStep_bijective : Function.Bijective dataStep := by
  have left (bits : Nat) (moves : 0 < bits) :
      Function.Bijective (xorShift fun word : U32 => word <<< bits) :=
    (vanishing_shiftLeft moves).xorShift_bijective
  have right (bits : Nat) (moves : 0 < bits) :
      Function.Bijective (xorShift fun word : U32 => word >>> bits) :=
    (vanishing_shiftRight moves).xorShift_bijective
  exact (left 5 (by decide)).comp ((right 17 (by decide)).comp (left 13 (by decide)))

theorem dataStep_ne_zero {state : U32} (nonzero : state ≠ 0) : dataStep state ≠ 0 := by
  have fixed : dataStep 0 = 0 := by decide
  intro vanished
  apply nonzero
  exact dataStep_bijective.injective (vanished.trans fixed.symm)

theorem dataStep_linear : Linear dataStep := by
  have left (bits : Nat) (moves : 0 < bits) : Linear (xorShift fun word : U32 => word <<< bits) :=
    (vanishing_shiftLeft moves).xorShift_linear
  have right (bits : Nat) (moves : 0 < bits) : Linear (xorShift fun word : U32 => word >>> bits) :=
    (vanishing_shiftRight moves).xorShift_linear
  exact (left 5 (by decide)).comp ((right 17 (by decide)).comp (left 13 (by decide)))

/-- The columns that take the change of a state back to the state. -/
def changeColumns : List U32 :=
  [0x926a_0349, 0x2676_c599, 0x4e4f_4839, 0x4c56_5031, 0x4864_6021, 0x4000_0001, 0x8000_0002,
    0xd0c8_c047, 0x7159_40cd, 0xe2b2_819a, 0xc7c7_c03f, 0x8f8f_807e, 0x1f1f_00fc, 0xeef6_c1bb,
    0x0f87_803e, 0xcfc7_c03f, 0x9f8f_807e, 0x3f1f_00fc, 0xaef6_c1bb, 0x8f87_803e, 0x1f0f_007c,
    0xeed6_c0bb, 0x0fc7_823e, 0xcf47_c43f, 0x9e8f_887e, 0x3d1f_10fc, 0xaaf6_e1bb, 0x8787_c03e,
    0x0f0f_807c, 0xced7_c0bb, 0x9daf_8176, 0xe935_01a4]

/-- Only the zero state stays where it is. -/
theorem dataStep_fixed_iff {state : U32} : dataStep state = state ↔ state = 0#32 := by
  constructor
  · intro fixed
    have linear : Linear fun state => dataStep state ^^^ state := by
      intro first second
      simp only [dataStep_linear first second]
      ac_rfl
    have undone : ∀ bit < 32, combine (dataStep (BitVec.twoPow 32 bit) ^^^ BitVec.twoPow 32 bit) 0
        changeColumns = BitVec.twoPow 32 bit := by decide +kernel
    apply linear.eq_zero_of_undone changeColumns undone
    rw [fixed]
    exact BitVec.xor_self
  · intro zero
    subst zero
    decide

/-- Neither word of the generator is zero. -/
structure Alive (rng : Rng) : Prop where
  seed : rng.seed ≠ 0
  state : rng.state ≠ 0

theorem alive_new : Alive .new := ⟨by decide, by decide⟩

theorem alive_setSeed (rng : Rng) (seed : U32) : Alive (rng.setSeed seed) := by
  have nonzero : (if seed = 0#32 then defaultSeed else seed) ≠ 0 := by
    split
    · decide
    · assumption
  exact ⟨nonzero, nonzero⟩

theorem Alive.act {rng : Rng} (alive : Alive rng) (action : Action) : Alive (rng.act action) := by
  cases action with
  | read register =>
    cases register with
    | seed | state => exact alive
    | data =>
      rw [Rng.act, Rng.read, nextU32_eq]
      exact ⟨alive.seed, dataStep_ne_zero alive.state⟩
  | write register value =>
    cases register with
    | seed => exact alive_setSeed rng value
    | data | state => exact alive

theorem alive_run (actions : List Action) : Alive (run act new actions) := by
  have preserved (rng : Rng) (action : Action) (_ : True) (alive : Alive rng) :
      Alive (rng.act action) := alive.act action
  exact run_invariant preserved new actions alive_new fun _ _ => trivial

/-- DATA reads iterate the step. -/
theorem state_reads (rng : Rng) (reads : Nat) :
    (run act rng (List.replicate reads (.read .data))).state = dataStep^[reads] rng.state := by
  induction reads generalizing rng with
  | zero => rfl
  | succ reads ih =>
    rw [List.replicate_succ, run_cons, ih, Function.iterate_succ_apply]
    rfl

/-- From reset the seed and the state are never zero, whatever is read and written; a DATA read
returns the state it moves to, the step is a bijection, and generators with different states stay
apart under any number of DATA reads. -/
theorem never_degenerates :
    (∀ actions, (run act new actions).seed ≠ 0 ∧ (run act new actions).state ≠ 0) ∧
    (∀ seed, Function.Bijective fun state => (nextU32 ⟨seed, state⟩).2.state) ∧
    (∀ rng : Rng, (rng.read .data).1 = (rng.read .data).2.state) ∧
    ∀ (first second : Rng) (reads : Nat), first.state ≠ second.state →
      (run act first (List.replicate reads (.read .data))).state ≠
        (run act second (List.replicate reads (.read .data))).state := by
  refine ⟨?_, ?_, ?_, ?_⟩
  · intro actions
    obtain ⟨seed, state⟩ := alive_run actions
    exact ⟨seed, state⟩
  · intro seed
    simp only [nextU32_eq]
    exact dataStep_bijective
  · intro rng
    rfl
  · intro first second reads different same
    rw [state_reads, state_reads] at same
    exact different (dataStep_bijective.injective.iterate reads same)

end Minemu.Core.Rng

import Minemu.Platform.Mmu

/-! Exception kinds and the requests that enter them. -/

namespace Minemu.Platform

/-- CPU modes used by the supported exception paths. -/
inductive CpuMode where
  | user
  | supervisor
  | interrupt
  | abort
  | undefined
deriving DecidableEq

/-- A platform exception kind. -/
inductive ExceptionKind where
  | undefined
  | supervisorCall
  | prefetchAbort
  | dataAbort
  | interrupt
deriving DecidableEq

namespace ExceptionKind

def vectorOffset : ExceptionKind → U32
  | undefined => 0x04
  | supervisorCall => 0x08
  | prefetchAbort => 0x0c
  | dataAbort => 0x10
  | interrupt => 0x18

def destinationMode : ExceptionKind → CpuMode
  | undefined => .undefined
  | supervisorCall => .supervisor
  | prefetchAbort | dataAbort => .abort
  | interrupt => .interrupt

/-- The fixed C dispatcher ID of a synchronous exception. -/
def dispatchId : ExceptionKind → Option Int
  | undefined => some (-4)
  | supervisorCall => some (-3)
  | prefetchAbort => some (-2)
  | dataAbort => some (-1)
  | interrupt => none

/-- Virtual-time cost of platform exception entry. -/
def entryTicks (_kind : ExceptionKind) : Nat := 1

end ExceptionKind

/-- Backend-neutral information needed to enter an exception vector. -/
structure ExceptionRequest where
  kind : ExceptionKind
  pc : VirtualAddress
  fault : Option FaultStatus
deriving DecidableEq

namespace ExceptionRequest

def synchronous (kind : ExceptionKind) (pc : VirtualAddress) : ExceptionRequest := ⟨kind, pc, none⟩

def abort (kind : ExceptionKind) (pc : VirtualAddress) (fault : FaultStatus) : ExceptionRequest :=
  ⟨kind, pc, some fault⟩

end ExceptionRequest

end Minemu.Platform

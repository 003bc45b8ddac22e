import Minemu.Core.Lookup
import Minemu.Core.TranslationOrder
import Minemu.Library.Caching
import Minemu.Runtime.InvisibleInspection

/-! Translations kept in a cache. The engine may remember what the virtual-TLB callback answered,
and a guest that invalidates after changing what a translation reads, before relying on it, sees
the callback behind every access. -/

namespace Minemu.Core.TranslationOrder

open Library Platform Translation Isolation

/-! ### Addresses of one page -/

theorem page_or_offset {page address : U32}
    (same : page &&& ptePageMask = address &&& ptePageMask) :
    (page &&& ptePageMask) ||| (address &&& 0xfff#32) = address := by
  have whole : ptePageMask ||| 0xfff#32 = BitVec.allOnes 32 := by decide
  rw [same, ← BitVec.and_or_distrib_left, whole, BitVec.and_allOnes]

theorem page_of_or (raw address : U32) :
    ((raw &&& ptePageMask) ||| (address &&& 0xfff#32)) &&& ptePageMask = raw &&& ptePageMask := by
  have apart : 0xfff#32 &&& ptePageMask = 0#32 := by decide
  rw [BitVec.and_or_distrib_right, BitVec.and_assoc, BitVec.and_assoc, BitVec.and_self, apart,
    BitVec.and_zero, BitVec.or_zero]

/-- The indices of a walk are those of the page. -/
theorem index_page {first second : U32}
    (same : first &&& ptePageMask = second &&& ptePageMask) :
    first >>> 22 = second >>> 22 ∧ (first >>> 12) &&& 0x3ff#32 = (second >>> 12) &&& 0x3ff#32 := by
  have pages := congrArg BitVec.toNat same
  rw [toNat_pageMask, toNat_pageMask] at pages
  constructor
  · apply BitVec.eq_of_toNat_eq
    rw [BitVec.toNat_ushiftRight, BitVec.toNat_ushiftRight, Nat.shiftRight_eq_div_pow,
      Nat.shiftRight_eq_div_pow]
    omega
  · apply BitVec.eq_of_toNat_eq
    rw [toNat_index, toNat_index]
    omega

/-- Two attempts on one page that ask for the same access. -/
structure SamePage (first second : Attempt) : Prop where
  page : first.address.get &&& ptePageMask = second.address.get &&& ptePageMask
  access : first.access = second.access
  userMode : first.userMode = second.userMode

variable {memory after : PhysicalMemory} {mmu mmu' : Mmu} {attempt other : Attempt}
  {target : PhysicalAddress}

/-- A translation reaches the same page for every address of a page, with the same effects. -/
theorem run_samePage (same : SamePage attempt other)
    (reached : attempt.run mmu memory = (.ok target, mmu', after)) :
    other.run mmu memory =
      (.ok ⟨(target.get &&& ptePageMask) ||| (other.address.get &&& 0xfff#32)⟩, mmu', after) := by
  obtain ⟨address, access, userMode⟩ := attempt
  obtain ⟨page, rfl, rfl⟩ := same
  have ⟨upper, middle⟩ := index_page page
  simp only at page upper middle
  have directory : directoryRead mmu memory other.address = directoryRead mmu memory address := by
    rw [directoryRead, directoryRead, Mmu.directoryAddress, Mmu.directoryAddress, upper]
  have position (pde : U32) : entryPosition pde other.address = entryPosition pde address := by
    have index := congrArg BitVec.toNat middle
    rw [toNat_index, toNat_index] at index
    rw [entryPosition, entryPosition, index]
  have entry : entryRead mmu memory other.address = entryRead mmu memory address := by
    rw [entryRead, entryRead, directory, entryWord, entryWord, position]
  unfold Attempt.run at reached ⊢
  rcases refused_or_reaches mmu memory address other.access other.userMode with
    ⟨cause, enabled, refused⟩ | ⟨physical, reaches⟩
  · rw [translate_refused enabled refused] at reached
    cases reached
  · obtain ⟨marked, translated, direct, mapped⟩ := translate_reaches reaches
    cases translated.symm.trans reached
    cases reaches with
    | direct disabled =>
      obtain ⟨marked, translated, direct', _⟩ :=
        translate_reaches (.direct disabled : Reaches mmu memory other.address other.access
          other.userMode _)
      rw [translated, direct disabled, direct' disabled, page_or_offset page]
    | mapped enabled permitted =>
      rw [← directory, ← entry] at permitted
      obtain ⟨marked', translated, _, mapped'⟩ := translate_reaches (.mapped enabled permitted)
      have stored := mapped' enabled
      rw [directory, position, entry] at stored
      rw [translated, stored.unique (mapped enabled), page_of_or, entry]

/-! ### Attempts that change nothing -/

/-- The attempt reaches the target and leaves everything as it was. -/
def Rests (mmu : Mmu) (memory : PhysicalMemory) (attempt : Attempt) (target : PhysicalAddress) :
    Prop :=
  attempt.run mmu memory = (.ok target, mmu, memory)

/-- The page directory is one the platform accepts while it is in use. -/
def Usable (mmu : Mmu) : Prop := mmu.enabled = true → Accepted mmu

theorem rests_disabled (disabled : mmu.enabled = false) :
    Rests mmu memory attempt target ↔ target = ⟨attempt.address.get⟩ := by
  have identity : attempt.run mmu memory = (.ok ⟨attempt.address.get⟩, mmu, memory) := by
    simp only [Attempt.run, Mmu.translate, disabled, Bool.not_false, ↓reduceIte]
  rw [Rests, identity]
  simp [eq_comm]

theorem rests_marker (enabled : mmu.enabled = true) (accepted : Accepted mmu) :
    Rests mmu memory attempt target ↔
      (attempt.marker mmu).answer (words memory) = .ok target ∧
        (attempt.marker mmu).mark (· ||| ·) (words memory) = words memory := by
  obtain ⟨answer, marked, bootRom, systemRom, -, -⟩ := run_marks enabled accepted attempt memory
  constructor
  · intro rests
    rw [rests] at answer marked
    refine ⟨?_, marked.symm⟩
    cases decided : (attempt.marker mmu).answer (words memory) with
    | error cause =>
      rw [decided] at answer
      cases answer
    | ok reached =>
      rw [decided] at answer
      cases answer
      rfl
  · intro ⟨decided, unmarked⟩
    rw [decided] at answer
    rw [unmarked] at marked
    have memories := ext_words bootRom systemRom marked
    have mmus := Unicorn.UnicornBackend.mmu_translate mmu memory attempt.address attempt.access
      attempt.userMode
    have ok : (mmu.translate memory attempt.address attempt.access attempt.userMode).1 =
        .ok target := answer
    rw [ok] at mmus
    exact Prod.ext ok (Prod.ext mmus memories)

/-- What a rest says of the two words the walk reads. -/
theorem rests_words (enabled : mmu.enabled = true) (accepted : Accepted mmu) :
    Rests mmu memory attempt target ↔
      let pde := directoryWord mmu memory attempt.address
      let pte := entryWord memory pde attempt.address
      attempt.decision pde pte = .ok target ∧ pte ||| metadata attempt.access = pte := by
  rw [rests_marker enabled accepted]
  simp only [Attempt.marker, pde_words accepted, words_cell]
  refine and_congr_right fun decided => ?_
  have chosen : (attempt.marker mmu).choice (words memory) =
      some (attempt.cell (directoryWord mmu memory attempt.address), metadata attempt.access) := by
    simp only [Attempt.marker, pde_words accepted, words_cell, decided, Except.toOption,
      Option.map_some]
  have marked : (attempt.marker mmu).mark (· ||| ·) (words memory) =
      Marker.joinAt (· ||| ·) (words memory)
        (attempt.cell (directoryWord mmu memory attempt.address)) (metadata attempt.access) :=
    Marker.mark_some chosen
  simp only [Attempt.marker] at marked
  rw [marked, Marker.joinAt, Function.update_eq_self_iff, words_cell]

theorem usable_run (usable : Usable mmu) (attempt : Attempt) (memory : PhysicalMemory) :
    Usable (attempt.run mmu memory).2.1 := by
  intro enabled
  have mmus := Unicorn.UnicornBackend.mmu_translate mmu memory attempt.address attempt.access
    attempt.userMode
  have same : (attempt.run mmu memory).2.1.enabled = mmu.enabled ∧
      (attempt.run mmu memory).2.1.ttbr0 = mmu.ttbr0 := by
    rw [Attempt.run, mmus]
    split <;> exact ⟨rfl, rfl⟩
  have accepted := usable (same.1 ▸ enabled)
  rw [Accepted, same.2]
  exact accepted

/-- No attempt disturbs one that changes nothing. -/
theorem Rests.walk (usable : Usable mmu) (rests : Rests mmu memory attempt target)
    (other : Attempt) :
    Rests (other.run mmu memory).2.1 (other.run mmu memory).2.2 attempt target := by
  cases enabled : mmu.enabled with
  | false =>
    have identity : other.run mmu memory = (.ok ⟨other.address.get⟩, mmu, memory) := by
      simp only [Attempt.run, Mmu.translate, enabled, Bool.not_false, ↓reduceIte]
    rw [identity]
    exact rests
  | true =>
    have accepted := usable enabled
    obtain ⟨-, marked, -, -, stays, ttbr0⟩ := run_marks enabled accepted other memory
    obtain ⟨decided, unmarked⟩ := (rests_marker enabled accepted).mp rests
    have same : attempt.marker (other.run mmu memory).2.1 = attempt.marker mmu := by
      unfold Attempt.marker Attempt.pde
      rw [ttbr0]
    refine (rests_marker stays (usable_run usable other memory stays)).mpr ?_
    rw [same, marked]
    refine ⟨(blind_mark mmu other attempt _).answer.trans decided, ?_⟩
    rw [Marker.mark_comm (blind_mark mmu other attempt _) (blind_mark mmu attempt other _),
      unmarked]

/-- An attempt that reached its target changes nothing the second time. -/
theorem rests_again (usable : Usable mmu)
    (reached : attempt.run mmu memory = (.ok target, mmu', after)) :
    Rests mmu' after attempt target := by
  cases enabled : mmu.enabled with
  | false =>
    have identity : attempt.run mmu memory = (.ok ⟨attempt.address.get⟩, mmu, memory) := by
      simp only [Attempt.run, Mmu.translate, enabled, Bool.not_false, ↓reduceIte]
    rw [identity] at reached
    cases reached
    exact identity
  | true =>
    have accepted := usable enabled
    obtain ⟨answer, marked, -, -, stays, ttbr0⟩ := run_marks enabled accepted attempt memory
    have later := usable_run usable attempt memory
    rw [reached] at answer marked stays ttbr0 later
    have same : attempt.marker mmu' = attempt.marker mmu := by
      unfold Attempt.marker Attempt.pde
      rw [ttbr0]
    have decided : (attempt.marker mmu).answer (words memory) = .ok target := by
      cases found : (attempt.marker mmu).answer (words memory) with
      | error cause =>
        rw [found] at answer
        cases answer
      | ok other =>
        rw [found] at answer
        cases answer
        rfl
    refine (rests_marker stays (later stays)).mpr ?_
    rw [same, marked]
    exact ⟨(blind_mark mmu attempt attempt _).answer.trans decided,
      Marker.mark_again (blind_mark mmu attempt attempt _)⟩

/-- The walk of the address reads the same words, or there is none before and after. -/
structure Keeps (mmu mmu' : Mmu) (memory after : PhysicalMemory) (address : VirtualAddress) :
    Prop where
  enabled : mmu'.enabled = mmu.enabled
  words : mmu.enabled = true →
    directoryWord mmu' after address = directoryWord mmu memory address ∧
      entryWord after (directoryWord mmu memory address) address =
        entryWord memory (directoryWord mmu memory address) address

theorem Rests.keep (usable : Usable mmu) (later : Usable mmu')
    (keeps : Keeps mmu mmu' memory after attempt.address)
    (rests : Rests mmu memory attempt target) : Rests mmu' after attempt target := by
  cases enabled : mmu.enabled with
  | false =>
    rw [rests_disabled (keeps.enabled.trans enabled)]
    exact (rests_disabled enabled).mp rests
  | true =>
    have stays := keeps.enabled.trans enabled
    have ⟨directory, entry⟩ := keeps.words enabled
    rw [rests_words stays (later stays), directory]
    simp only [entry]
    exact (rests_words enabled (usable enabled)).mp rests

end Minemu.Core.TranslationOrder

namespace Minemu.Unicorn.TranslationCache

open Library Platform Minemu.Core Minemu.Core.TranslationOrder

/-- One access of the guest, in the mode it is made in. -/
structure Query where
  address : U32
  memoryType : MemType
  userMode : Bool
deriving DecidableEq

/-- What an entry is for: a page, one kind of access and one mode. -/
abbrev Key := U32 × MemType × Bool

namespace Query

def key (query : Query) : Key := (query.address &&& ptePageMask, query.memoryType, query.userMode)

/-- The translation attempt of a query, unless its kind of access is none the MMU knows. -/
def attempt (query : Query) : Option Attempt :=
  (mmuAccess query.memoryType).map fun access => ⟨⟨query.address⟩, access, query.userMode⟩

/-- The answer an entry for a physical page gives. -/
def answer (query : Query) (page : PhysicalAddress) : Option (PhysicalAddress × Access) :=
  (mmuAccess query.memoryType).map fun access =>
    (⟨page.get ||| (query.address &&& 0xfff#32)⟩, access)

/-- The callback in the mode of the query. -/
def look (backend : UnicornBackend) (query : Query) :
    Option (PhysicalAddress × Access) × UnicornBackend :=
  match mmuAccess query.memoryType with
  | none => (none, backend)
  | some access =>
    let (translated, mmu, memory) :=
      backend.machine.mmu.translate backend.machine.memory ⟨query.address⟩ access query.userMode
    let machine := { backend.machine with mmu, memory }
    match translated with
    | .ok physical =>
      if access = .fetch ∧ (MemRegion.ofAddress physical).any MemRegion.isDevice then
        let (fault, mmu) :=
          machine.mmu.recordInvalidMmioFault ⟨query.address⟩ access query.userMode
        (none, { backend with
          machine := { machine with mmu }, callbackStop := some (.mmuFault fault) })
      else (some (physical, access), { backend with machine })
    | .error fault => (none, { backend with machine, callbackStop := some (.mmuFault fault) })

end Query

/-- The callback as a lookup whose pages a cache keeps. -/
def lookup : Lookup UnicornBackend Query Key PhysicalAddress (Option (PhysicalAddress × Access))
    where
  look := Query.look
  key := Query.key
  store answer := answer.map fun found => ⟨found.1.get &&& ptePageMask⟩
  load := Query.answer

/-- A change that concerns no walk of the address. -/
def Keeps (backend after : UnicornBackend) (query : Query) : Prop :=
  TranslationOrder.Keeps backend.machine.mmu after.machine.mmu backend.machine.memory
    after.machine.memory ⟨query.address⟩

def Usable (backend : UnicornBackend) : Prop := TranslationOrder.Usable backend.machine.mmu

/-- Fetching from the address is refused. -/
def DeviceFetch (access : Access) (physical : PhysicalAddress) : Prop :=
  access = .fetch ∧ (MemRegion.ofAddress physical).any MemRegion.isDevice = true

variable {backend : UnicornBackend} {query other : Query} {attempt : Attempt}
  {page : PhysicalAddress}

theorem attempt_eq {access : Access} (kind : mmuAccess query.memoryType = some access) :
    query.attempt = some ⟨⟨query.address⟩, access, query.userMode⟩ := by
  rw [Query.attempt, kind, Option.map_some]

/-- What the callback does with a translation that succeeds. -/
theorem look_ok {access : Access} {physical : PhysicalAddress} {mmu : Mmu}
    {memory : PhysicalMemory} (kind : mmuAccess query.memoryType = some access)
    (translated : Attempt.run ⟨⟨query.address⟩, access, query.userMode⟩ backend.machine.mmu
      backend.machine.memory = (.ok physical, mmu, memory))
    (plain : ¬ DeviceFetch access physical) :
    Query.look backend query =
      (some (physical, access),
        { backend with machine := { backend.machine with mmu, memory } }) := by
  unfold Attempt.run at translated
  simp only [Query.look, kind, translated]
  exact if_neg plain

/-- An answer that was found is that of a translation that succeeded. -/
theorem look_some {access : Access} {physical : PhysicalAddress} {after : UnicornBackend}
    (looked : Query.look backend query = (some (physical, access), after)) :
    mmuAccess query.memoryType = some access ∧ ¬ DeviceFetch access physical ∧
      Attempt.run ⟨⟨query.address⟩, access, query.userMode⟩ backend.machine.mmu
        backend.machine.memory = (.ok physical, after.machine.mmu, after.machine.memory) ∧
      after = { backend with machine := { backend.machine with
        mmu := after.machine.mmu, memory := after.machine.memory } } := by
  unfold Query.look at looked
  cases kind : mmuAccess query.memoryType with
  | none =>
    simp only [kind] at looked
    cases looked
  | some kind' =>
    simp only [kind] at looked
    rcases translated : backend.machine.mmu.translate backend.machine.memory ⟨query.address⟩ kind'
      query.userMode with ⟨fault | target, mmu, memory⟩
    · simp only [translated] at looked
      cases looked
    · simp only [translated] at looked
      split at looked
      · cases looked
      · rename_i plain
        cases looked
        exact ⟨rfl, plain, translated, rfl⟩

/-- The state after a lookup is that of its attempt as far as translations go. -/
theorem look_machine (backend : UnicornBackend) (kind : query.attempt = some attempt) :
    (Query.look backend query).2.machine.memory =
        (attempt.run backend.machine.mmu backend.machine.memory).2.2 ∧
      (Query.look backend query).2.machine.mmu.enabled =
        (attempt.run backend.machine.mmu backend.machine.memory).2.1.enabled ∧
      (Query.look backend query).2.machine.mmu.ttbr0 =
        (attempt.run backend.machine.mmu backend.machine.memory).2.1.ttbr0 := by
  obtain ⟨access, known, rfl⟩ := Option.map_eq_some_iff.mp kind
  rcases translated : backend.machine.mmu.translate backend.machine.memory ⟨query.address⟩ access
    query.userMode with ⟨fault | target, mmu, memory⟩
  · simp only [Query.look, Attempt.run, known, translated, and_self]
  · simp only [Query.look, Attempt.run, known, translated]
    split <;> exact ⟨rfl, rfl, rfl⟩

/-- An entry stands for a query when its attempt rests, and is for no fetch from a device. -/
theorem steady_iff : lookup.Steady backend query page ↔
    ∀ attempt, query.attempt = some attempt →
      let target : PhysicalAddress := ⟨page.get ||| (query.address &&& 0xfff#32)⟩
      Rests backend.machine.mmu backend.machine.memory attempt target ∧
        ¬ DeviceFetch attempt.access target := by
  unfold Lookup.Steady
  simp only [lookup, Query.answer]
  cases kind : mmuAccess query.memoryType with
  | none => simp [Query.look, Query.attempt, kind]
  | some access =>
    rw [attempt_eq kind]
    simp only [Option.map_some, Option.some.injEq, forall_eq']
    constructor
    · intro looked
      obtain ⟨-, plain, translated, -⟩ := look_some looked
      exact ⟨translated, plain⟩
    · intro ⟨rests, plain⟩
      exact look_ok kind rests plain

/-- The two queries of a key ask the same of one page. -/
theorem samePage_of_key {first second : Attempt} (alike : other.key = query.key)
    (mine : query.attempt = some first) (yours : other.attempt = some second) :
    SamePage first second := by
  simp only [Query.key, Prod.mk.injEq] at alike
  obtain ⟨pages, kinds, modes⟩ := alike
  obtain ⟨access, kind, rfl⟩ := Option.map_eq_some_iff.mp mine
  obtain ⟨access', kind', rfl⟩ := Option.map_eq_some_iff.mp yours
  rw [kinds, kind, Option.some.injEq] at kind'
  exact ⟨pages.symm, kind', modes.symm⟩

theorem deviceFetch_page {access : Access} {first second : PhysicalAddress}
    (pages : first.get &&& ptePageMask = second.get &&& ptePageMask) :
    DeviceFetch access first ↔ DeviceFetch access second := by
  have numbers := congrArg BitVec.toNat pages
  rw [toNat_pageMask, toNat_pageMask] at numbers
  rw [DeviceFetch, DeviceFetch, ofAddress_samePage first second (by omega)]

/-- An access of a kind the MMU does not know looks nothing up. -/
theorem look_none (nothing : query.attempt = none) :
    Query.look backend query = (none, backend) := by
  simp only [Query.look, Option.map_eq_none_iff.mp nothing]

theorem usable_look (usable : Usable backend) (query : Query) :
    Usable (Query.look backend query).2 := by
  cases kind : query.attempt with
  | none =>
    rw [look_none kind]
    exact usable
  | some attempt =>
    obtain ⟨-, enabled, ttbr0⟩ := look_machine backend kind
    intro active
    have accepted := usable_run usable attempt backend.machine.memory (enabled ▸ active)
    rw [Translation.Accepted] at accepted ⊢
    rwa [ttbr0]

/-- A lookup leaves an attempt at rest that another lookup's attempt leaves at rest. -/
theorem rests_look {target : PhysicalAddress} (usable : Usable backend) (query : Query)
    (rests : Rests backend.machine.mmu backend.machine.memory attempt target) :
    Rests (Query.look backend query).2.machine.mmu (Query.look backend query).2.machine.memory
      attempt target := by
  cases kind : query.attempt with
  | none =>
    rw [look_none kind]
    exact rests
  | some other =>
    obtain ⟨memory, enabled, ttbr0⟩ := look_machine backend kind
    have walked := rests.walk usable other
    have ran := usable_run usable other backend.machine.memory
    refine walked.keep ran (usable_look usable query) ⟨enabled, fun _ => ?_⟩
    rw [memory, Translation.directoryWord, Translation.directoryWord, ttbr0]
    exact ⟨rfl, rfl⟩

/-- The callback is fit for a cache that keeps pages for each access and mode. -/
theorem cacheable : lookup.Cacheable Usable Keeps where
  usable query usable := usable_look usable query
  settle {backend query other page} usable stored alike := by
    rcases looked : Query.look backend query with ⟨_ | ⟨physical, access⟩, after⟩
    · simp only [lookup, looked] at stored
      cases stored
    · simp only [lookup, looked, Option.map_some, Option.some.injEq] at stored
      obtain ⟨kind, plain, translated, -⟩ := look_some looked
      have again := rests_again usable translated
      subst stored
      rw [steady_iff]
      intro attempt yours
      have same := samePage_of_key alike (attempt_eq kind) yours
      have moved := run_samePage same again
      have address : attempt.address = ⟨other.address⟩ := by
        obtain ⟨_, _, rfl⟩ := Option.map_eq_some_iff.mp yours
        rfl
      rw [address] at moved
      simp only [lookup, looked]
      refine ⟨moved, ?_⟩
      have pages : DeviceFetch access ⟨(physical.get &&& ptePageMask) |||
          (other.address &&& 0xfff#32)⟩ ↔ DeviceFetch access physical :=
        deviceFetch_page (page_of_or _ _)
      rwa [← same.access, pages]
  walk {backend other page} query usable steady := by
    rw [steady_iff] at steady ⊢
    intro attempt yours
    obtain ⟨rests, plain⟩ := steady attempt yours
    exact ⟨rests_look usable query rests, plain⟩
  keep {backend after query page} usable later keeps steady := by
    rw [steady_iff] at steady ⊢
    intro attempt mine
    obtain ⟨rests, plain⟩ := steady attempt mine
    have address : attempt.address = ⟨query.address⟩ := by
      obtain ⟨_, _, rfl⟩ := Option.map_eq_some_iff.mp mine
      rfl
    exact ⟨rests.keep usable later (address ▸ keeps), plain⟩

/-! ### Runs -/

/-- What happens while the engine keeps translations. `hit` says whether an access is answered from
the cache where the cache has an entry for it, `evict` which entries the engine drops; `host` is
whatever the adapter does between batches. -/
inductive Turn where
  | engine (event : EngineEvent) (hit : Bool)
  | cp15 (pending : PendingCp15) (tickDeadline : Option Nat)
  | host (next : UnicornBackend → UnicornBackend)
  | evict (keep : Key → Bool)

namespace Turn

/-- The turn of an engine that keeps nothing: every access reaches the callback. -/
def step (engine : Engine) (backend : UnicornBackend) : Turn → UnicornBackend
  | .engine event _ => backend.event event
  | .cp15 pending tickDeadline => (backend.finishCp15 engine pending tickDeadline).2
  | .host next => next backend
  | .evict _ => backend

/-- What the callback answers in a run of such turns. -/
def answers (engine : Engine) (backend : UnicornBackend) :
    List Turn → List (Option (PhysicalAddress × Access))
  | [] => []
  | turn :: turns =>
    let rest := answers engine (turn.step engine backend) turns
    match turn with
    | .engine (.tlb address memoryType) _ =>
      (backend.virtualTlbCallback address memoryType).1 :: rest
    | _ => rest

/-- An access asks the cache, TLBIALL empties it where the engine's flush succeeds, and everything
else may change what translations read. -/
def toEvent (engine : Engine) : Turn → CacheEvent UnicornBackend Query Key
  | .engine (.tlb address memoryType) hit =>
    .ask (fun backend => ⟨address, memoryType, backend.userMode⟩) hit
  | .engine event _ => .change fun backend => backend.event event
  | .cp15 (.operation .invalidateAll) _ => .flush fun backend => (engine.flushTlb backend).isOk
  | .cp15 pending tickDeadline =>
    .change fun backend => (backend.finishCp15 engine pending tickDeadline).2
  | .host next => .change next
  | .evict keep => .evict keep

end Turn

/-- TLBIALL changes nothing but the engine's cache. -/
theorem finishCp15_invalidateAll (engine : Engine) (backend : UnicornBackend)
    (tickDeadline : Option Nat) :
    (backend.finishCp15 engine (.operation .invalidateAll) tickDeadline).2 = backend := by
  simp only [UnicornBackend.finishCp15, Mmu.applyCp15]
  split <;> rfl

/-- A turn as the step of a user of the lookup. -/
theorem plainStep_turn (engine : Engine)
    (plain : Plain UnicornBackend Query (Option (PhysicalAddress × Access))) (turn : Turn) :
    (lookup.plainStep Keeps plain (turn.toEvent engine)).state = turn.step engine plain.state ∧
      (lookup.plainStep Keeps plain (turn.toEvent engine)).answers =
        plain.answers ++ Turn.answers engine plain.state [turn] := by
  cases turn with
  | engine event hit =>
    cases event with
    | tlb address memoryType => exact ⟨rfl, rfl⟩
    | _ => exact ⟨rfl, (List.append_nil _).symm⟩
  | cp15 pending tickDeadline =>
    cases pending with
    | operation operation =>
      cases operation with
      | invalidateAll =>
        exact ⟨(finishCp15_invalidateAll engine plain.state tickDeadline).symm,
          (List.append_nil _).symm⟩
      | _ => exact ⟨rfl, (List.append_nil _).symm⟩
    | _ => exact ⟨rfl, (List.append_nil _).symm⟩
  | host next => exact ⟨rfl, (List.append_nil _).symm⟩
  | evict keep => exact ⟨rfl, (List.append_nil _).symm⟩

theorem answers_cons (engine : Engine) (backend : UnicornBackend) (turn : Turn)
    (turns : List Turn) :
    Turn.answers engine backend (turn :: turns) =
      Turn.answers engine backend [turn] ++
        Turn.answers engine (turn.step engine backend) turns := by
  cases turn with
  | engine event hit => cases event <;> rfl
  | _ => rfl

/-- A run of turns as a run of the user. -/
theorem run_plainStep (engine : Engine)
    (plain : Plain UnicornBackend Query (Option (PhysicalAddress × Access))) (turns : List Turn) :
    let ran := run (lookup.plainStep Keeps) plain (turns.map (Turn.toEvent engine))
    ran.state = run (Turn.step engine) plain.state turns ∧
      ran.answers = plain.answers ++ Turn.answers engine plain.state turns := by
  induction turns generalizing plain with
  | nil => exact ⟨rfl, (List.append_nil _).symm⟩
  | cons turn turns ih =>
    obtain ⟨state, answers⟩ := plainStep_turn engine plain turn
    obtain ⟨later, more⟩ := ih (lookup.plainStep Keeps plain (turn.toEvent engine))
    rw [state] at later more
    rw [answers] at more
    refine ⟨later, ?_⟩
    rw [List.map_cons, run_cons, more, answers_cons engine plain.state turn turns,
      List.append_assoc]

/-- A guest that keeps the required TLBIALL order cannot tell whether translations are cached: the
answers and the machine are those of a run in which every access reaches the callback. -/
theorem translation_cache_unseen (engine : Engine) (start : UnicornBackend)
    (usable : Usable start) (turns : List Turn)
    (ordered : Throughout (lookup.plainStep Keeps) (Lookup.Ordered Usable)
      ⟨start, [], fun _ => False⟩ (turns.map (Turn.toEvent engine))) :
    let cached := run lookup.cachedStep ⟨start, [], fun _ => none⟩ (turns.map (Turn.toEvent engine))
    cached.state = run (Turn.step engine) start turns ∧
      cached.answers = Turn.answers engine start turns := by
  have coherent := (Lookup.Coherent.initial lookup start usable).run cacheable _ ordered
  obtain ⟨state, answers⟩ := run_plainStep engine ⟨start, [], fun _ => False⟩ turns
  exact ⟨coherent.state.trans state, coherent.answers.trans answers⟩

/-- An engine whose flush succeeds and that runs nothing. -/
def flushing : Engine := ⟨fun _ _ => .ok (), fun _ => .ok (), fun _ _ _ _ => ([], .ok ())⟩

/-- A backend that translates through the table of `onePage`. -/
def onePageBackend : UnicornBackend :=
  .new { Machine.new Translation.onePage 0 with mmu := ⟨true, ⟨ramBase⟩, ⟨0⟩, none⟩ }

/-- Two reads of the one page, the second from the cache, then a store that remaps the page to the
next one, TLBIALL, and a third read. -/
def remapping : List Turn :=
  [.engine (.tlb 0x10 .read) false, .engine (.tlb 0x14 .read) true,
    .engine (.native .reset [(⟨0x4000_1000⟩, toBytes 4 0x4000_3013)]) false,
    .cp15 (.operation .invalidateAll) none, .engine (.tlb 0x10 .read) true]

theorem translation_cache_unseen_remapping :
    (run lookup.cachedStep ⟨onePageBackend, [], fun _ => none⟩
        (remapping.map (Turn.toEvent flushing))).answers =
      Turn.answers flushing onePageBackend remapping := by
  have accepted : Cp15Operation.ofTtbr0 ramBase = .ok (.setTtbr0 ⟨ramBase⟩) := by decide
  have usable : Usable onePageBackend := fun _ => accepted
  refine (translation_cache_unseen flushing onePageBackend usable remapping ?_).2
  have native (backend : UnicornBackend) (fine : Usable backend) (cpu : Cpu)
      (stores : List (PhysicalAddress × List U8)) : Usable (backend.event (.native cpu stores)) :=
    fine
  refine ⟨id, id, native _ (usable_look (usable_look usable _) _) _ _, trivial, ?_, trivial⟩
  intro stale
  cases stale.2

end Minemu.Unicorn.TranslationCache

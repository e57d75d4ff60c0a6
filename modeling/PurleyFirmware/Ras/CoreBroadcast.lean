import PurleyFirmware.Foundation.Runs
import PurleyFirmware.Foundation.Tally
import PurleyFirmware.Uefi.Status

/-!
# Starting a callback on one thread of every core

`SmmStartupCoreApBlkCnt` runs a callback once on every core of a socket. For each core it picks the
first valid thread; if the caller itself is on that core it calls the callback, and otherwise it
starts the callback on the thread's processor. What waits for the processors it started is one
shared counter, `mMpSyncData.CpuCnt`: the caller increments it before a start and takes the
increment back when the start fails, every started processor decrements it after the callback, and
the caller returns when it reads zero.

The parties are the caller and the processors (APs) below `MAXCPUDATA`. Each label moves one of
them by one access to the shared state, so a run is an interleaving of the caller's accesses with
those of the APs. `SmmStartupThisAp` may fail at any call; it succeeds only on an AP whose `Busy`
lock it can take.

## What is fixed and what is not

The topology (`mCpuInfo`, the bits of the APIC ID, where the caller runs) is fixed during a call and
arbitrary otherwise. APs may be busy with procedures that were started outside the call, whose end
is a step of its own.

The loop variable `core` is a `UINT8` and `mMaxCoreId` a `UINT32`. With 256 cores or more the loop
has no end; the results that need one say `Config.HasLoopEnd`.
-/

namespace PurleyFirmware.MpSync

/-! ### The configuration -/

/-- What is fixed during a call of `SmmStartupCoreApBlkCnt`. -/
structure Config where
  /-- `skt`. -/
  skt : BitVec 8
  /-- `SmmApCallback != NULL`. -/
  smmApCallback : Bool
  /-- `mSmst_syncdata != NULL`. -/
  mSmst : Bool
  /-- `MAX_SOCKET`. -/
  maxSocket : ℕ
  /-- `MAXCPUDATA`, the extent of `mMpSyncData.CpuData`. -/
  maxCpuData : ℕ
  /-- The counter is a `UINT32`, which an array of that many processors does not exhaust. -/
  maxCpuData_lt : maxCpuData + 1 < 4294967296
  /-- `CoreBits` of `GetCoreAndSMTBits`. -/
  coreBits : ℕ
  /-- `ThreadBits` of `GetCoreAndSMTBits`. -/
  threadBits : ℕ
  /-- `mCpuInfo[skt].Valid[core][thread]`. -/
  valid : BitVec 8 → BitVec 8 → BitVec 8 → Bool
  /-- `mCpuInfo[skt].cpuNumber[core][thread]`. -/
  cpuNumber : BitVec 8 → BitVec 8 → BitVec 8 → BitVec 64
  /-- The socket that `ExtractingNodeCoreFromApicId` reads for the caller. -/
  localSocket : BitVec 8
  /-- The core that `ExtractingNodeCoreFromApicId` reads for the caller. -/
  localCore : BitVec 8
  /-- `gSmmCpuPrivate->SmmCoreEntryContext.NumberOfCpus`. -/
  numberOfCpus : ℕ
  /-- `gSmmCpuPrivate->SmmCoreEntryContext.CurrentlyExecutingCpu`. -/
  currentlyExecutingCpu : ℕ
  /-- `mSmmMpSyncData->CpuData[].Present`. -/
  present : ℕ → Bool
  /-- `gSmmCpuPrivate->Operation[] == SmmCpuRemove`. -/
  removed : ℕ → Bool
  /-- `PcdCpuSmmBlockStartupThisAp`. -/
  blockStartupThisAp : Bool

namespace Config

variable (cfg : Config)

/-- `mMaxCoreId`. -/
def mMaxCoreId : BitVec 32 := 1#32 <<< cfg.coreBits

/-- The loop over the cores can end: its bound is a value of its variable. -/
def HasLoopEnd : Prop := cfg.mMaxCoreId.toNat < 256

/-- `GetMaxThreads`. -/
def getMaxThreads : BitVec 8 := (1#32 <<< cfg.threadBits).setWidth 8

/-- `FindValidThread`; `none` is a status other than `EFI_SUCCESS`. -/
def findValidThread (skt core : BitVec 8) : Option (BitVec 8) :=
  if cfg.maxSocket ≤ skt.toNat ∨ cfg.mMaxCoreId.toNat ≤ core.toNat then none
  else ((List.range cfg.getMaxThreads.toNat).map (BitVec.ofNat 8)).find? (cfg.valid skt core)

/-- `GetTheCpuNumber`. -/
def getTheCpuNumber (skt core thread : BitVec 8) : BitVec 64 :=
  if skt.toNat < cfg.maxSocket ∧ core.toNat < cfg.mMaxCoreId.toNat ∧
      thread.toNat < cfg.getMaxThreads.toNat ∧ cfg.valid skt core thread = true then
    cfg.cpuNumber skt core thread
  else -1#64

/-- `ExecutingOnLocalNodeCore`. -/
def executingOnLocalNodeCore (skt core : BitVec 8) : Bool :=
  skt == cfg.localSocket && core == cfg.localCore

/-- The tests of `SmmStartupThisAp` before it tries to take `Busy`. -/
def startable (cpuIndex : ℕ) : Bool :=
  decide (cpuIndex < cfg.numberOfCpus) && decide (cpuIndex ≠ cfg.currentlyExecutingCpu) &&
    cfg.present cpuIndex && !cfg.removed cpuIndex

end Config

/-! ### Program counters -/

/-- Where `SmmStartupCoreApBlkCnt` is. -/
inductive CallerPc
  /-- Next: the tests of the arguments, and `CpuCnt = 0`. -/
  | enter
  /-- Next: the turn of the loop for `core`, up to the first access to the shared state. -/
  | loop (core : BitVec 8)
  /-- In `SmmCntStartupThisAp`. Next: `InterlockedIncrement (&CpuCnt)`. -/
  | increment (core : BitVec 8) (cpuIndex : ℕ)
  /-- In `SmmCntStartupThisAp`. Next: `SmmStartupThisAp`. -/
  | startupThisAp (core : BitVec 8) (cpuIndex : ℕ)
  /-- In `SmmStartupThisAp`, where it blocks until the AP releases `Busy`. -/
  | blockOnAp (core : BitVec 8) (cpuIndex : ℕ)
  /-- In `SmmCntStartupThisAp`, the start failed. Next: `InterlockedDecrement (&CpuCnt)`. -/
  | decrement (core : BitVec 8)
  /-- In the callback, on the caller's own core. -/
  | localCallback (core : BitVec 8)
  /-- In `while (CpuCnt != 0)`. -/
  | wait
  /-- Back from the call. -/
  | returned (status : EfiStatus)
  deriving DecidableEq, Repr

/-- Where an AP is. It holds its `Busy` lock everywhere but at `idle`. -/
inductive ApPc
  /-- `Busy` is free. -/
  | idle
  /-- In a procedure that was started outside the call. -/
  | other
  /-- Started for `core`. Next: `MpSyncApWrapperCnt` and its call of the callback. -/
  | scheduled (core : BitVec 8)
  /-- In the callback for `core`. -/
  | callback (core : BitVec 8)
  /-- In `MpSyncApWrapperCnt`. Next: `InterlockedDecrement (&CpuCnt)`. -/
  | decrement
  /-- Next: `ReleaseSpinLock (&Busy)`. -/
  | release
  deriving DecidableEq, Repr

/-- Started by the call, and yet to decrement the counter. -/
def ApPc.counted : ApPc → Bool
  | .scheduled _ | .callback _ | .decrement => true
  | .idle | .other | .release => false

/-! ### The shared state -/

/-- The counter, where every party is, and what happened so far. -/
structure State where
  /-- `mMpSyncData.CpuCnt`. -/
  cpuCnt : BitVec 32
  caller : CallerPc
  ap : ℕ → ApPc
  /-- Not in the code: `SmmStartupThisAp` returned `EFI_SUCCESS` for the core. -/
  startSucceeded : BitVec 8 → Bool
  /-- Not in the code: how often the callback was entered for the core. -/
  entered : BitVec 8 → ℕ
  /-- Not in the code: how often the callback came to its end for the core. -/
  finished : BitVec 8 → ℕ

namespace State

variable (s : State)

/-- The caller goes on to `pc`. -/
def callerTo (pc : CallerPc) : State := { s with caller := pc }

/-- AP `i` goes on to `pc`. -/
def apTo (i : ℕ) (pc : ApPc) : State := { s with ap := Function.update s.ap i pc }

/-- `InterlockedIncrement (&CpuCnt)`. -/
def increment : State := { s with cpuCnt := s.cpuCnt + 1 }

/-- `InterlockedDecrement (&CpuCnt)`. -/
def decrement : State := { s with cpuCnt := s.cpuCnt - 1 }

/-- The callback is entered for `core`. -/
def enter (core : BitVec 8) : State :=
  { s with entered := Function.update s.entered core (s.entered core + 1) }

/-- The callback comes to its end for `core`. -/
def finish (core : BitVec 8) : State :=
  { s with finished := Function.update s.finished core (s.finished core + 1) }

/-- AP `i` is started for `core`. -/
def start (core : BitVec 8) (i : ℕ) : State :=
  { s with
    ap := Function.update s.ap i (.scheduled core)
    startSucceeded := Function.update s.startSucceeded core true }

end State

/-! ### The steps -/

/-- One turn of the loop over the cores, up to the first access to the shared state. The valid
thread of the core that the turn finds is tested twice more. -/
def turn (cfg : Config) (core : BitVec 8) : CallerPc :=
  if core.toNat < cfg.mMaxCoreId.toNat then
    match cfg.findValidThread cfg.skt core with
    | none => .loop (core + 1)
    | some thread =>
      if cfg.executingOnLocalNodeCore cfg.skt core then .localCallback core
      else if cfg.valid cfg.skt core thread then
        let cpuNumber := cfg.getTheCpuNumber cfg.skt core thread
        if cpuNumber = -1#64 then .loop (core + 1)
        else if cpuNumber.toNat < cfg.maxCpuData then .increment core cpuNumber.toNat
        else .loop (core + 1)
      else .loop (core + 1)
  else .wait

/-- A step of the caller; `succeeds` is the outcome of `SmmStartupThisAp`. -/
def callerStep (cfg : Config) (s : State) (succeeds : Bool) : Option State :=
  match s.caller with
  | .enter =>
    if cfg.mSmst = false ∨ cfg.maxSocket ≤ cfg.skt.toNat ∨ cfg.smmApCallback = false then
      some (s.callerTo (.returned .invalidParameter))
    else some ({ s with cpuCnt := 0 }.callerTo (.loop 0))
  | .loop core =>
    match turn cfg core with
    | .localCallback core => some ((s.enter core).callerTo (.localCallback core))
    | pc => some (s.callerTo pc)
  | .increment core cpuIndex => some (s.increment.callerTo (.startupThisAp core cpuIndex))
  | .startupThisAp core cpuIndex =>
    if succeeds then
      if cfg.startable cpuIndex ∧ s.ap cpuIndex = .idle then
        some ((s.start core cpuIndex).callerTo
          (if cfg.blockStartupThisAp then .blockOnAp core cpuIndex else .loop (core + 1)))
      else none
    else some (s.callerTo (.decrement core))
  | .blockOnAp core cpuIndex =>
    if s.ap cpuIndex = .idle then some (s.callerTo (.loop (core + 1))) else none
  | .decrement core => some (s.decrement.callerTo (.loop (core + 1)))
  | .localCallback core => some ((s.finish core).callerTo (.loop (core + 1)))
  | .wait => if s.cpuCnt = 0 then some (s.callerTo (.returned .success)) else some s
  | .returned _ => none

/-- A step of AP `i`. -/
def apStep (cfg : Config) (s : State) (i : ℕ) : Option State :=
  if i < cfg.maxCpuData then
    match s.ap i with
    | .idle => none
    | .other => some (s.apTo i .idle)
    | .scheduled core => some ((s.enter core).apTo i (.callback core))
    | .callback core => some ((s.finish core).apTo i .decrement)
    | .decrement => some (s.decrement.apTo i .release)
    | .release => some (s.apTo i .idle)
  else none

/-- Who moves. -/
inductive Label
  /-- The caller; `succeeds` is the outcome of `SmmStartupThisAp`, where it is called. -/
  | caller (succeeds : Bool)
  | ap (i : ℕ)
  deriving DecidableEq, Repr

/-- One step of one party. -/
def step (cfg : Config) (s : State) : Label → Option State
  | .caller succeeds => callerStep cfg s succeeds
  | .ap i => apStep cfg s i

/-- A call is about to be made: no AP runs `MpSyncApWrapperCnt`. -/
structure Init (s : State) : Prop where
  caller : s.caller = .enter
  ap : ∀ i, s.ap i = .idle ∨ s.ap i = .other
  startSucceeded : ∀ core, s.startSucceeded core = false
  entered : ∀ core, s.entered core = 0
  finished : ∀ core, s.finished core = 0

/-- The runs of one call. -/
def system (cfg : Config) : LabelledSystem State Label where
  init := Init
  step s a s' := step cfg s a = some s'

end PurleyFirmware.MpSync

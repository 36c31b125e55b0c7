import Mathlib.Algebra.Group.Nat.Defs
import Dorsche.Lib.Ensure
import Dorsche.Lib.Handles

/-!
Capture frames between C++ and Rust (`src/dorsche_core.cc`,
`src/topshim/frame.rs`).

A capture frame is a buffer descriptor, a writable mapping of it and a fence
descriptor. The functions here run against the process's tables of descriptors
and mappings, call by call, with the outcome of each system call as an argument.
A descriptor field of `-1` is `none`. `SharedPcmFrame::from_cpp` is cut at its
`await`: `fromCpp` is the part before the fence is waited for and `finish` the
part after; in between other code runs.
-/

namespace Dorsche.Topshim

open Dorsche.Lib

/-- The process's descriptors and mappings. -/
structure Kernel where
  fds : Table
  maps : Table
deriving DecidableEq, Repr

/-- Code that opens and closes. -/
abbrev Posix (α : Type) := StateM Kernel α

def openFd : Posix Nat := fun k => (k.fds.acquire.1, { k with fds := k.fds.acquire.2 })

def closeFd (fd : Nat) : Posix Unit := fun k => ((), { k with fds := k.fds.release fd })

def mapMemory : Posix Nat := fun k => (k.maps.acquire.1, { k with maps := k.maps.acquire.2 })

def unmapMemory (mapping : Nat) : Posix Unit := fun k =>
  ((), { k with maps := k.maps.release mapping })

/-! ### C++ -/

/-- Outcomes of the calls a capture makes. -/
structure CaptureCalls where
  openHeap : Bool
  allocDmaBuf : Bool
  memfdCreate : Bool
  ftruncate : Bool
  mmap : Bool
  eventfd : Bool
  write : Bool
  errno : String
deriving DecidableEq, Repr

def createMemfd (calls : CaptureCalls) : Posix (Option Nat) := do
  if calls.memfdCreate then
    let fd ← openFd
    if calls.ftruncate then return some fd
    else
      closeFd fd
      return none
  else return none

/-- The memfd fallback of `allocate_shared_audio`. -/
def allocateMemfd (calls : CaptureCalls) : Posix (Result (Nat × Bool)) := do
  match ← createMemfd calls with
  | none => return .error ("unable to allocate DMA-BUF or memfd: " ++ calls.errno)
  | some fd => return .ok (fd, false)

def allocateSharedAudio (calls : CaptureCalls) : Posix (Result (Nat × Bool)) := do
  if calls.openHeap then
    let heap ← openFd
    if calls.allocDmaBuf then
      let fd ← openFd
      closeFd heap
      return .ok (fd, true)
    else
      closeFd heap
      allocateMemfd calls
  else allocateMemfd calls

/-- What a frame carries besides its descriptors. -/
structure FrameInfo where
  sampleCount : Nat
  sampleRate : UInt32
  sequence : UInt64
  captureTimeNs : UInt64
  isDmaBuf : Bool
deriving DecidableEq, Repr

structure HardwareFrame where
  info : FrameInfo
  bufferFd : Option Nat
  fenceFd : Option Nat
  writableMapping : Option Nat
deriving DecidableEq, Repr

namespace HardwareFrame

/-- The constructor. A constructor that throws runs no destructor. -/
def new (calls : CaptureCalls) (info : FrameInfo) : Posix (Result HardwareFrame) := do
  match ← allocateSharedAudio calls with
  | .error e => return .error e
  | .ok (buffer, dmaBuf) =>
      if calls.mmap then
        let mapping ← mapMemory
        if calls.eventfd then
          let fence ← openFd
          if calls.write then
            return .ok ⟨{ info with isDmaBuf := dmaBuf }, some buffer, some fence, some mapping⟩
          else
            closeFd fence
            unmapMemory mapping
            closeFd buffer
            return .error "eventfd fence signal failed"
        else
          unmapMemory mapping
          closeFd buffer
          return .error "eventfd fence creation failed"
      else
        closeFd buffer
        return .error "mmap capture buffer failed"

/-- Release a member that may be absent. -/
def ifPresent (release : Nat → Posix Unit) : Option Nat → Posix Unit
  | none => return ()
  | some handle => release handle

/-- The destructor. -/
def destroy (self : HardwareFrame) : Posix Unit := do
  ifPresent unmapMemory self.writableMapping
  ifPresent closeFd self.bufferFd
  ifPresent closeFd self.fenceFd

/-- `take_buffer_fd`: the writable mapping ends before the descriptor leaves. -/
def takeBufferFd (self : HardwareFrame) : Posix (Option Nat × HardwareFrame) := do
  ifPresent unmapMemory self.writableMapping
  return (self.bufferFd, { self with bufferFd := none, writableMapping := none })

def takeFenceFd (self : HardwareFrame) : Option Nat × HardwareFrame :=
  (self.fenceFd, { self with fenceFd := none })

end HardwareFrame

/-! ### Rust -/

/-- The locals of `from_cpp` while it waits for the fence. -/
structure Adoption where
  info : FrameInfo
  buffer : Nat
  fence : Nat
deriving DecidableEq, Repr

structure SharedPcmFrame where
  info : FrameInfo
  buffer : Nat
  mapping : Nat
deriving DecidableEq, Repr

namespace SharedPcmFrame

/-- `from_cpp` once it has the two descriptors. -/
def adopt (raw : HardwareFrame) : Option Nat → Option Nat → Posix (Result Adoption)
  | none, _ => do
      raw.destroy
      return .error "C++ transferred an invalid buffer fd"
  | some buffer, none => do
      -- Reconstitute ownership so the already-transferred buffer closes.
      closeFd buffer
      raw.destroy
      return .error "C++ transferred an invalid fence fd"
  | some buffer, some fence => do
      raw.destroy
      return .ok ⟨raw.info, buffer, fence⟩

/-- `from_cpp` up to the wait; `none` is a null pointer. The frame is consumed
whatever the result. -/
def fromCpp : Option HardwareFrame → Posix (Result Adoption)
  | none => return .error "C++ returned a null capture frame"
  | some raw => do
      if raw.info.sampleCount * 4 < 2 ^ 64 then
        let (buffer, raw) ← raw.takeBufferFd
        let (fence, raw) := raw.takeFenceFd
        adopt raw buffer fence
      else
        raw.destroy
        return .error "PCM byte length overflow"

/-- How the rest of `from_cpp` goes. -/
inductive Outcome where
  | fenceFails (error : String)
  | mapFails (error : String)
  | shortMapping
  | misaligned
  | succeeds
deriving DecidableEq, Repr

/-- `from_cpp` after the wait. `wait_for_fence` drops the fence either way. -/
def finish (adoption : Adoption) : Outcome → Posix (Result SharedPcmFrame)
  | .fenceFails error => do
      closeFd adoption.fence
      closeFd adoption.buffer
      return .error ("capture fence: " ++ error)
  | .mapFails error => do
      closeFd adoption.fence
      closeFd adoption.buffer
      return .error ("read-only map of capture buffer: " ++ error)
  | .shortMapping => do
      closeFd adoption.fence
      let mapping ← mapMemory
      unmapMemory mapping
      closeFd adoption.buffer
      return .error "short PCM mapping"
  | .misaligned => do
      closeFd adoption.fence
      let mapping ← mapMemory
      unmapMemory mapping
      closeFd adoption.buffer
      return .error "PCM mapping is not f32-aligned"
  | .succeeds => do
      closeFd adoption.fence
      let mapping ← mapMemory
      return .ok ⟨adoption.info, adoption.buffer, mapping⟩

/-- The future is dropped while it waits. -/
def cancel (adoption : Adoption) : Posix Unit := do
  closeFd adoption.fence
  closeFd adoption.buffer

/-- The last `Arc` is dropped. -/
def drop (self : SharedPcmFrame) : Posix Unit := do
  closeFd self.buffer
  unmapMemory self.mapping

end SharedPcmFrame

/-! ### Runs -/

/-- The process: its tables, the objects of each kind by position (`none` once
gone), the descriptors that another caller took out of a frame, and those that
unrelated code has open. -/
structure World where
  kernel : Kernel
  frames : List (Option HardwareFrame)
  adoptions : List (Option Adoption)
  shared : List (Option SharedPcmFrame)
  taken : List Nat
  unrelated : List Nat

def World.initial : World := ⟨⟨.empty, .empty⟩, [], [], [], [], []⟩

inductive Event where
  | capture (calls : CaptureCalls) (info : FrameInfo)
  | takeBufferFd (i : Nat)
  | takeFenceFd (i : Nat)
  | destroy (i : Nat)
  | adoptNull
  | adopt (i : Nat)
  | finish (j : Nat) (outcome : SharedPcmFrame.Outcome)
  | cancel (j : Nat)
  | drop (j : Nat)
  | callerCloses (fd : Nat)
  | unrelatedOpens
  | unrelatedCloses (fd : Nat)
deriving DecidableEq, Repr

namespace World

/-- Add an object if there is one. -/
def push {α : Type} (objects : List (Option α)) : Result α → List (Option α)
  | .ok a => objects ++ [some a]
  | .error _ => objects

/-- One operation; `none` if its object is not there. -/
def step (w : World) : Event → Option World
  | .capture calls info =>
      let out := (HardwareFrame.new calls info).run w.kernel
      some { w with kernel := out.2, frames := push w.frames out.1 }
  | .takeBufferFd i =>
      w.frames[i]?.join.map fun frame =>
        let out := frame.takeBufferFd.run w.kernel
        { w with
          kernel := out.2
          frames := w.frames.set i (some out.1.2)
          taken := out.1.1.toList ++ w.taken }
  | .takeFenceFd i =>
      w.frames[i]?.join.map fun frame =>
        { w with
          frames := w.frames.set i (some frame.takeFenceFd.2)
          taken := frame.takeFenceFd.1.toList ++ w.taken }
  | .destroy i =>
      w.frames[i]?.join.map fun frame =>
        { w with kernel := (frame.destroy.run w.kernel).2, frames := w.frames.set i none }
  | .adoptNull =>
      let out := (SharedPcmFrame.fromCpp none).run w.kernel
      some { w with kernel := out.2, adoptions := push w.adoptions out.1 }
  | .adopt i =>
      w.frames[i]?.join.map fun frame =>
        let out := (SharedPcmFrame.fromCpp (some frame)).run w.kernel
        { w with
          kernel := out.2
          frames := w.frames.set i none
          adoptions := push w.adoptions out.1 }
  | .finish j outcome =>
      w.adoptions[j]?.join.map fun adoption =>
        let out := (SharedPcmFrame.finish adoption outcome).run w.kernel
        { w with
          kernel := out.2
          adoptions := w.adoptions.set j none
          shared := push w.shared out.1 }
  | .cancel j =>
      w.adoptions[j]?.join.map fun adoption =>
        { w with
          kernel := ((SharedPcmFrame.cancel adoption).run w.kernel).2
          adoptions := w.adoptions.set j none }
  | .drop j =>
      w.shared[j]?.join.map fun frame =>
        { w with kernel := (frame.drop.run w.kernel).2, shared := w.shared.set j none }
  | .callerCloses fd =>
      if fd ∈ w.taken then
        some { w with kernel := ((closeFd fd).run w.kernel).2, taken := w.taken.erase fd }
      else none
  | .unrelatedOpens =>
      let out := openFd.run w.kernel
      some { w with kernel := out.2, unrelated := out.1 :: w.unrelated }
  | .unrelatedCloses fd =>
      if fd ∈ w.unrelated then
        some { w with kernel := ((closeFd fd).run w.kernel).2, unrelated := w.unrelated.erase fd }
      else none

/-- A run, event by event. -/
def run : World → List Event → Option World
  | w, [] => some w
  | w, event :: events => do run (← w.step event) events

end World

end Dorsche.Topshim

import Dorsche.Lib.Holdings
import Dorsche.Wireless.DataPlane.Layout

/-!
Who owns the descriptors and mappings of a media ring
(`src/wireless/data_plane.rs`).

An endpoint is a descriptor of the ring's memory, one of its eventfd and a mapping.
`RingPair::create` makes two of them with eight system calls, each of which may
fail; `into_descriptor` and `from_descriptor` turn an endpoint into something that
can be sent to another process and back; a drop releases what is left. Here a
process does these things with any number of rings in any order.

A `RingDescriptor` does not say which endpoint it was made from. Its `role` below
is not in the source: it is what the caller has to remember.
-/

namespace Dorsche.Wireless.DataPlane

open Dorsche.Lib

/-! ### Endpoints -/

inductive Kind where
  | descriptor
  | mapping
deriving DecidableEq, Repr

/-- What a descriptor or a mapping is of. -/
inductive Object where
  | memory (ring : Nat)
  | event (ring : Nat)
deriving DecidableEq, Repr

abbrev Owning (α : Type) := Scope Kind Object α

/-- The fields of `Producer` and of `Consumer`. -/
structure Endpoint where
  memoryFd : Nat
  eventFd : Nat
  mapping : Nat
deriving DecidableEq, Repr

structure RingDescriptor where
  memoryFd : Nat
  eventFd : Nat
deriving DecidableEq, Repr

inductive Role where
  | producer
  | consumer
deriving DecidableEq, Repr

def createMemfd (ring : Nat) (sys : SystemCalls) (len : Nat) : Owning Nat := do
  completed sys.memfdCreate
  let owned ← Scope.make .descriptor (.memory ring)
  Scope.orDrop .descriptor owned do
    completed (sys.ftruncate len)
    completed sys.addSeals
    return owned

def createEventfd (ring : Nat) (sys : SystemCalls) : Owning Nat := do
  completed sys.eventfd
  Scope.make .descriptor (.event ring)

def duplicateFd (outcome : Option String) (fd : Nat) : Owning Nat := do
  completed outcome
  Scope.again .descriptor .descriptor fd "Bad file descriptor"

/-- `Mapping::shared` once `mmap` has succeeded. -/
def mappingOf (fd : Nat) : Owning Nat := Scope.again .descriptor .mapping fd "Bad file descriptor"

/-- `RingPair::create`. When `AsyncFd::new` fails it drops its descriptor first and
the other locals after it; the order makes no difference. -/
def Endpoint.create (ring : Nat) (sys : SystemCalls) (slotCount payloadCapacity : UInt32) :
    Owning (Endpoint × Endpoint) := do
  ensure (2 ≤ slotCount) "ring requires at least two slots"
  ensure (0 < payloadCapacity) "ring payload capacity must be non-zero"
  let slotSize := FrameDescriptor.sizeOf + payloadCapacity.toNat
  ensure (slotSize < 2 ^ 64) "slot size overflow"
  let slotStride := alignUp 64 slotSize cacheLine
  ensure (slotStride * slotCount.toNat < 2 ^ 64) "ring size overflow"
  let mapLen := ringHeaderSize + slotStride * slotCount.toNat
  ensure (mapLen < 2 ^ 64) "ring size overflow"
  ensure (slotStride ≤ 2 ^ 32 - 1) "slot stride exceeds ABI"
  let memoryFd ← createMemfd ring sys mapLen
  Scope.orDrop .descriptor memoryFd do
    let consumerMemoryFd ← duplicateFd sys.duplicateMemory memoryFd
    Scope.orDrop .descriptor consumerMemoryFd do
      let eventFd ← createEventfd ring sys
      Scope.orDrop .descriptor eventFd do
        let consumerEventFd ← duplicateFd sys.duplicateEvent eventFd
        Scope.orDrop .descriptor consumerEventFd do
          let address ← sys.mapProducer
          let producerMap ← mappingOf memoryFd
          Scope.orDrop .mapping producerMap do
            ensure (address % cacheLine = 0) "mmap did not satisfy atomic alignment"
            let header : RingHeader :=
              { magic := ringMagic
                abiVersion := wirelessAudioAbiVersion
                headerBytes := UInt16.ofNat ringHeaderSize
                slotCount := slotCount
                slotStride := UInt32.ofNat slotStride
                payloadCapacity := payloadCapacity
                head := 0
                tail := 0
                dropped := 0 }
            let memory := header.store fun _ => 0
            completed sys.mapConsumer
            let consumerMap ← mappingOf consumerMemoryFd
            Scope.orDrop .mapping consumerMap do
              validateHeader 64 (RingHeader.load memory) mapLen
              completed sys.asyncFd
              return (⟨memoryFd, eventFd, producerMap⟩,
                ⟨consumerMemoryFd, consumerEventFd, consumerMap⟩)

/-- Outcomes of the calls of `from_descriptor`, and the header it finds. -/
structure AdoptCalls where
  fstat : Except String Int
  mmap : Option String
  header : RingHeader
  asyncFd : Option String

def fdLen : Except String Int → Result Nat
  | .error error => .error error
  | .ok size => if 0 ≤ size then .ok size.toNat else .error "negative memfd size"

/-- The last step of an adoption: only a consumer waits for its eventfd. -/
def registers (role : Role) (calls : AdoptCalls) : Result Unit :=
  match role with
  | .producer => .ok ()
  | .consumer => completed calls.asyncFd

/-- `Producer::from_descriptor` and `Consumer::from_descriptor`. -/
def Endpoint.fromDescriptor (role : Role) (calls : AdoptCalls) (descriptor : RingDescriptor) :
    Owning Endpoint :=
  Scope.orDrop .descriptor descriptor.memoryFd do
    Scope.orDrop .descriptor descriptor.eventFd do
      let mapLen ← fdLen calls.fstat
      completed calls.mmap
      let mapping ← mappingOf descriptor.memoryFd
      Scope.orDrop .mapping mapping do
        validateHeader 64 calls.header mapLen
        registers role calls
        return ⟨descriptor.memoryFd, descriptor.eventFd, mapping⟩

def Endpoint.intoDescriptor (endpoint : Endpoint) : Owning RingDescriptor := do
  Scope.drop .mapping endpoint.mapping
  return ⟨endpoint.memoryFd, endpoint.eventFd⟩

/-- The fields are dropped in the order of their declaration. -/
def Endpoint.drop (endpoint : Endpoint) : Owning Unit := do
  Scope.drop .descriptor endpoint.memoryFd
  Scope.drop .descriptor endpoint.eventFd
  Scope.drop .mapping endpoint.mapping

def RingDescriptor.drop (descriptor : RingDescriptor) : Owning Unit := do
  Scope.drop .descriptor descriptor.memoryFd
  Scope.drop .descriptor descriptor.eventFd

/-! ### What each of them owns -/

def Endpoint.holdings (ring : Nat) (endpoint : Endpoint) : List (Holding Kind Object) :=
  [⟨.descriptor, endpoint.memoryFd, .memory ring⟩, ⟨.descriptor, endpoint.eventFd, .event ring⟩,
    ⟨.mapping, endpoint.mapping, .memory ring⟩]

def RingDescriptor.holdings (ring : Nat) (descriptor : RingDescriptor) :
    List (Holding Kind Object) :=
  [⟨.descriptor, descriptor.memoryFd, .memory ring⟩,
    ⟨.descriptor, descriptor.eventFd, .event ring⟩]

variable {held left : List (Holding Kind Object)} {α β : Type}

theorem refines_createMemfd {ring len : Nat} {sys : SystemCalls} {rest : Nat → Owning α}
    {plain : Result β} {owned : α → β → List (Holding Kind Object)}
    (next : ∀ fd, (rest fd).Refines plain (⟨.descriptor, fd, .memory ring⟩ :: held) owned held) :
    Scope.Refines (createMemfd ring sys len >>= rest) (do
      completed sys.memfdCreate
      completed (sys.ftruncate len)
      completed sys.addSeals
      plain) held owned held := by
  have created : (createMemfd ring sys len).Refines (do
      completed sys.memfdCreate
      completed (sys.ftruncate len)
      completed sys.addSeals
      return ()) held
      (fun fd _ => ⟨.descriptor, fd, .memory ring⟩ :: held) held := by
    apply Scope.refines_check rfl
    intro _ _
    apply Scope.refines_make
    intro fd
    apply Scope.refines_orDrop (.memory ring)
    apply Scope.refines_check rfl
    intro _ _
    apply Scope.refines_check rfl
    intro _ _
    exact Scope.refines_pure .rfl
  simpa only [bind_assoc, pure_bind] using Scope.refines_bind created fun fd _ => next fd

theorem refines_duplicateFd {outcome : Option String} {fd : Nat} {object : Object}
    {rest : Nat → Owning α} {plain : Result β} {owned : α → β → List (Holding Kind Object)}
    (left_eq : left = held) (mem : ⟨.descriptor, fd, object⟩ ∈ held)
    (next : ∀ fd, (rest fd).Refines plain (⟨.descriptor, fd, object⟩ :: held) owned left) :
    Scope.Refines (duplicateFd outcome fd >>= rest) (do completed outcome; plain) held owned
      left := by
  unfold duplicateFd
  rw [bind_assoc]
  apply Scope.refines_check left_eq
  intro _ _
  exact Scope.refines_again object mem next

theorem refines_createEventfd {ring : Nat} {sys : SystemCalls} {rest : Nat → Owning α}
    {plain : Result β} {owned : α → β → List (Holding Kind Object)} (left_eq : left = held)
    (next : ∀ fd, (rest fd).Refines plain (⟨.descriptor, fd, .event ring⟩ :: held) owned left) :
    Scope.Refines (createEventfd ring sys >>= rest) (do completed sys.eventfd; plain) held owned
      left := by
  unfold createEventfd
  rw [bind_assoc]
  apply Scope.refines_check left_eq
  intro _ _
  exact Scope.refines_make next

/-- `create` fails exactly where the plain computation does, with the same text and
nothing left open, and otherwise owns two endpoints of the new ring. -/
theorem Endpoint.create_refines (ring : Nat) (sys : SystemCalls)
    (slotCount payloadCapacity : UInt32) :
    (Endpoint.create ring sys slotCount payloadCapacity).Refines
      (RingPair.create 64 sys slotCount payloadCapacity) held
      (fun out _ => out.1.holdings ring ++ (out.2.holdings ring ++ held)) held := by
  unfold Endpoint.create RingPair.create
  apply Scope.refines_check rfl
  intro _ _
  apply Scope.refines_check rfl
  intro _ _
  apply Scope.refines_check rfl
  intro _ _
  apply Scope.refines_check rfl
  intro _ _
  apply Scope.refines_check rfl
  intro _ _
  apply Scope.refines_check rfl
  intro _ _
  apply refines_createMemfd
  intro memoryFd
  apply Scope.refines_orDrop (.memory ring)
  apply refines_duplicateFd rfl List.mem_cons_self
  intro consumerMemoryFd
  apply Scope.refines_orDrop (.memory ring)
  apply refines_createEventfd rfl
  intro eventFd
  apply Scope.refines_orDrop (.event ring)
  apply refines_duplicateFd rfl List.mem_cons_self
  intro consumerEventFd
  apply Scope.refines_orDrop (.event ring)
  apply Scope.refines_check rfl
  intro address _
  apply Scope.refines_again (.memory ring) (by simp)
  intro producerMap
  apply Scope.refines_orDrop (.memory ring)
  apply Scope.refines_check rfl
  intro _ _
  apply Scope.refines_check rfl
  intro _ _
  apply Scope.refines_again (.memory ring) (by simp)
  intro consumerMap
  apply Scope.refines_orDrop (.memory ring)
  apply Scope.refines_check rfl
  intro _ _
  apply Scope.refines_check rfl
  intro _ _
  apply Scope.refines_pure
  refine List.perm_iff_count.mpr fun holding => ?_
  simp only [Endpoint.holdings, List.cons_append, List.nil_append, List.count_cons]
  omega

/-- What an adoption makes of its calls. -/
def adoption (role : Role) (calls : AdoptCalls) : Result Unit := do
  let mapLen ← fdLen calls.fstat
  completed calls.mmap
  validateHeader 64 calls.header mapLen
  registers role calls
  return ()

/-- An adoption takes over what the descriptor owns, or releases it. -/
theorem Endpoint.fromDescriptor_refines (ring : Nat) (role : Role) (calls : AdoptCalls)
    (descriptor : RingDescriptor) :
    (Endpoint.fromDescriptor role calls descriptor).Refines (adoption role calls)
      (descriptor.holdings ring ++ held) (fun endpoint _ => endpoint.holdings ring ++ held)
      held := by
  unfold Endpoint.fromDescriptor adoption
  apply Scope.refines_orDrop (.memory ring)
  apply Scope.refines_orDrop (.event ring)
  refine Scope.refines_perm ?_ .rfl (.swap ..)
  apply Scope.refines_check rfl
  intro mapLen _
  apply Scope.refines_check rfl
  intro _ _
  apply Scope.refines_again (.memory ring) (by simp [RingDescriptor.holdings])
  intro mapping
  apply Scope.refines_orDrop (.memory ring)
  apply Scope.refines_check rfl
  intro _ _
  apply Scope.refines_check rfl
  intro _ _
  apply Scope.refines_pure
  refine List.perm_iff_count.mpr fun holding => ?_
  simp only [Endpoint.holdings, RingDescriptor.holdings, List.cons_append, List.nil_append,
    List.count_cons]
  omega

/-- A descriptor keeps what the endpoint owned, up to the mapping. -/
theorem Endpoint.intoDescriptor_refines (ring : Nat) (endpoint : Endpoint) :
    endpoint.intoDescriptor.Refines (.ok ()) (endpoint.holdings ring ++ held)
      (fun descriptor _ => descriptor.holdings ring ++ held) held := by
  have front : (endpoint.holdings ring ++ held).Perm (⟨.mapping, endpoint.mapping, .memory ring⟩ ::
      (RingDescriptor.holdings ring ⟨endpoint.memoryFd, endpoint.eventFd⟩ ++ held)) := by
    refine List.perm_iff_count.mpr fun holding => ?_
    simp only [Endpoint.holdings, RingDescriptor.holdings, List.cons_append, List.nil_append,
      List.count_cons]
    omega
  unfold Endpoint.intoDescriptor
  refine Scope.refines_perm ?_ front .rfl
  apply Scope.refines_drop
  exact Scope.refines_pure .rfl

theorem Endpoint.drop_refines (ring : Nat) (endpoint : Endpoint) :
    endpoint.drop.Refines (.ok ()) (endpoint.holdings ring ++ held) (fun _ _ => held) held := by
  unfold Endpoint.drop
  apply Scope.refines_drop
  apply Scope.refines_drop
  rw [← bind_pure (Scope.drop _ _)]
  apply Scope.refines_drop
  exact Scope.refines_pure .rfl

theorem RingDescriptor.drop_refines (ring : Nat) (descriptor : RingDescriptor) :
    descriptor.drop.Refines (.ok ()) (descriptor.holdings ring ++ held) (fun _ _ => held)
      held := by
  unfold RingDescriptor.drop
  apply Scope.refines_drop
  rw [← bind_pure (Scope.drop _ _)]
  apply Scope.refines_drop
  exact Scope.refines_pure .rfl

/-! ### A process with any number of rings -/

inductive Form where
  | endpoint (endpoint : Endpoint)
  | descriptor (descriptor : RingDescriptor)
deriving DecidableEq, Repr

/-- A value of the process: an endpoint, or what an endpoint of that role was turned
into. -/
structure Live where
  ring : Nat
  role : Role
  form : Form
deriving DecidableEq, Repr

def Live.holdings (live : Live) : List (Holding Kind Object) :=
  match live.form with
  | .endpoint endpoint => endpoint.holdings live.ring
  | .descriptor descriptor => descriptor.holdings live.ring

structure World where
  process : Process Kind Object
  live : List Live
  /-- How many times `create` was called. -/
  rings : Nat

def World.start : World := ⟨.start, [], 0⟩

/-- What the process does next, and how its calls go. -/
inductive Act where
  | create (sys : SystemCalls) (slotCount payloadCapacity : UInt32)
  | intoDescriptor (i : Nat)
  | fromDescriptor (i : Nat) (role : Role) (calls : AdoptCalls)
  | drop (i : Nat)

def Live.drop (live : Live) : Owning Unit :=
  match live.form with
  | .endpoint endpoint => endpoint.drop
  | .descriptor descriptor => descriptor.drop

/-- One act. An act on a value that is not there or has another form does not exist. -/
def World.step (w : World) : Act → World
  | .create sys slotCount payloadCapacity =>
      match (Endpoint.create w.rings sys slotCount payloadCapacity).outcome w.process with
      | (.ok (producer, consumer), process) =>
          ⟨process, ⟨w.rings, .producer, .endpoint producer⟩ ::
            ⟨w.rings, .consumer, .endpoint consumer⟩ :: w.live, w.rings + 1⟩
      | (.error _, process) => ⟨process, w.live, w.rings + 1⟩
  | .intoDescriptor i =>
      match w.live[i]? with
      | some ⟨ring, role, .endpoint endpoint⟩ =>
          match endpoint.intoDescriptor.outcome w.process with
          | (.ok descriptor, process) =>
              ⟨process, ⟨ring, role, .descriptor descriptor⟩ :: w.live.eraseIdx i, w.rings⟩
          | (.error _, process) => ⟨process, w.live.eraseIdx i, w.rings⟩
      | _ => w
  | .fromDescriptor i role calls =>
      match w.live[i]? with
      | some ⟨ring, _, .descriptor descriptor⟩ =>
          match (Endpoint.fromDescriptor role calls descriptor).outcome w.process with
          | (.ok endpoint, process) =>
              ⟨process, ⟨ring, role, .endpoint endpoint⟩ :: w.live.eraseIdx i, w.rings⟩
          | (.error _, process) => ⟨process, w.live.eraseIdx i, w.rings⟩
      | _ => w
  | .drop i =>
      match w.live[i]? with
      | some live => ⟨(live.drop.outcome w.process).2, w.live.eraseIdx i, w.rings⟩
      | none => w

def World.run (w : World) (acts : List Act) : World := acts.foldl World.step w

/-- A descriptor is adopted in the role of the endpoint it was made from. -/
def Act.Faithful (w : World) : Act → Prop
  | .fromDescriptor i role _ => ∀ live, w.live[i]? = some live → live.role = role
  | _ => True

/-- Every adoption of a run is faithful. -/
def FaithfulRun : World → List Act → Prop
  | _, [] => True
  | w, act :: rest => act.Faithful w ∧ FaithfulRun (w.step act) rest

/-! ### What every process keeps -/

def World.holdings (w : World) : List (Holding Kind Object) := w.live.flatMap Live.holdings

/-- The ring and the role of each value. -/
def World.ends (w : World) : List (Nat × Role) := w.live.map fun live => (live.ring, live.role)

structure Sound (w : World) : Prop where
  books : w.process.Books w.holdings
  known : ∀ live ∈ w.live, live.ring < w.rings
  pairs : ∀ ring, (w.live.map (·.ring)).count ring ≤ 2

theorem sound_start : Sound .start := ⟨.start, by simp [World.start], by simp [World.start]⟩

variable {w : World}

/-- One value among the others. -/
theorem perm_eraseIdx {α : Type} {l : List α} {i : Nat} {a : α} (is : l[i]? = some a) :
    l.Perm (a :: l.eraseIdx i) := by
  obtain ⟨inside, rfl⟩ := List.getElem?_eq_some_iff.mp is
  exact (List.getElem_cons_eraseIdx_perm inside).symm

theorem holdings_eraseIdx {i : Nat} {live : Live} (is : w.live[i]? = some live) :
    w.holdings.Perm (live.holdings ++ (w.live.eraseIdx i).flatMap Live.holdings) :=
  (perm_eraseIdx is).flatMap_right _

/-- What an act can do to a process that owns what its values hold: a new ring or a
failed attempt at one, one value replaced by at most one other of its ring, or
nothing. -/
inductive Moves (w : World) (act : Act) : World → Prop where
  | created {process producer consumer} :
      process.Books (Endpoint.holdings w.rings producer ++
        (Endpoint.holdings w.rings consumer ++ w.holdings)) →
      Moves w act ⟨process, ⟨w.rings, .producer, .endpoint producer⟩ ::
        ⟨w.rings, .consumer, .endpoint consumer⟩ :: w.live, w.rings + 1⟩
  | failed {process} : process.Books w.holdings → Moves w act ⟨process, w.live, w.rings + 1⟩
  | replaced {process i live} (next : Option Live) : w.live[i]? = some live →
      (∀ l ∈ next, l.ring = live.ring ∧ (act.Faithful w → l.role = live.role)) →
      process.Books (next.toList.flatMap Live.holdings ++
        (w.live.eraseIdx i).flatMap Live.holdings) →
      Moves w act ⟨process, next.toList ++ w.live.eraseIdx i, w.rings⟩
  | nothing : Moves w act w

theorem moves_create (books : w.process.Books w.holdings) (sys : SystemCalls)
    (slotCount payloadCapacity : UInt32) :
    Moves w (.create sys slotCount payloadCapacity)
      (w.step (.create sys slotCount payloadCapacity)) := by
  have done := Endpoint.create_refines w.rings sys slotCount payloadCapacity w.process books
  simp only [World.step]
  generalize (Endpoint.create w.rings sys slotCount payloadCapacity).outcome w.process = out
    at done ⊢
  obtain ⟨result, process⟩ := out
  rcases done.cases with ⟨⟨producer, consumer⟩, _, rfl, -, after⟩ | ⟨e, rfl, -, after⟩
  · exact .created after
  · exact .failed after

theorem moves_intoDescriptor (books : w.process.Books w.holdings) (i : Nat) :
    Moves w (.intoDescriptor i) (w.step (.intoDescriptor i)) := by
  simp only [World.step]
  split
  · rename_i ring role endpoint is
    have done := Endpoint.intoDescriptor_refines ring endpoint w.process
      (books.perm (holdings_eraseIdx is))
    generalize endpoint.intoDescriptor.outcome w.process = out at done ⊢
    obtain ⟨result, process⟩ := out
    rcases done.cases with ⟨descriptor, _, rfl, -, after⟩ | ⟨e, rfl, ⟨⟩, -⟩
    refine .replaced (some ⟨ring, role, .descriptor descriptor⟩) is (by simp) ?_
    simpa [Live.holdings] using after
  · exact .nothing

theorem moves_fromDescriptor (books : w.process.Books w.holdings) (i : Nat) (role : Role)
    (calls : AdoptCalls) :
    Moves w (.fromDescriptor i role calls) (w.step (.fromDescriptor i role calls)) := by
  simp only [World.step]
  split
  · rename_i ring origin descriptor is
    have done := Endpoint.fromDescriptor_refines ring role calls descriptor w.process
      (books.perm (holdings_eraseIdx is))
    generalize (Endpoint.fromDescriptor role calls descriptor).outcome w.process = out at done ⊢
    obtain ⟨result, process⟩ := out
    rcases done.cases with ⟨endpoint, _, rfl, -, after⟩ | ⟨e, rfl, -, after⟩
    · refine .replaced (some ⟨ring, role, .endpoint endpoint⟩) is ?_ ?_
      · rintro _ ⟨⟩
        exact ⟨rfl, fun faithful => (faithful _ is).symm⟩
      · simpa [Live.holdings] using after
    · exact .replaced none is (by simp) after
  · exact .nothing

theorem Live.drop_refines (live : Live) :
    live.drop.Refines (.ok ()) (live.holdings ++ held) (fun _ _ => held) held := by
  unfold Live.drop Live.holdings
  cases live.form with
  | endpoint endpoint => exact endpoint.drop_refines live.ring
  | descriptor descriptor => exact descriptor.drop_refines live.ring

theorem moves_drop (books : w.process.Books w.holdings) (i : Nat) :
    Moves w (.drop i) (w.step (.drop i)) := by
  simp only [World.step]
  split
  · rename_i live is
    have done := live.drop_refines w.process (books.perm (holdings_eraseIdx is))
    generalize live.drop.outcome w.process = out at done ⊢
    obtain ⟨result, process⟩ := out
    rcases done.cases with ⟨_, _, rfl, -, after⟩ | ⟨e, rfl, ⟨⟩, -⟩
    exact .replaced none is (by simp) after
  · exact .nothing

theorem step_moves (books : w.process.Books w.holdings) (act : Act) : Moves w act (w.step act) := by
  cases act with
  | create sys slotCount payloadCapacity => exact moves_create books sys slotCount payloadCapacity
  | intoDescriptor i => exact moves_intoDescriptor books i
  | fromDescriptor i role calls => exact moves_fromDescriptor books i role calls
  | drop i => exact moves_drop books i

theorem perm_map_eraseIdx {β : Type} (f : Live → β) {i : Nat} {live : Live}
    (is : w.live[i]? = some live) : (w.live.map f).Perm (f live :: (w.live.eraseIdx i).map f) :=
  (perm_eraseIdx is).map f

/-- No value of a process is of a ring that is still to come. -/
theorem Sound.fresh (sound : Sound w) : w.rings ∉ w.live.map (·.ring) := by
  intro mem
  obtain ⟨live, old, is⟩ := List.mem_map.mp mem
  exact absurd is (Nat.ne_of_lt (sound.known live old))

theorem Sound.moves (sound : Sound w) {act : Act} {w' : World} (moves : Moves w act w') :
    Sound w' := by
  cases moves with
  | created books =>
      refine ⟨books, ?_, fun ring => ?_⟩
      · rw [List.forall_mem_cons, List.forall_mem_cons]
        exact ⟨Nat.lt_succ_self _, Nat.lt_succ_self _,
          fun live old => Nat.lt_succ_of_lt (sound.known live old)⟩
      · have before := sound.pairs ring
        rw [List.map_cons, List.map_cons, List.count_cons, List.count_cons]
        by_cases here : w.rings = ring
        · subst here
          rw [List.count_eq_zero.mpr sound.fresh]
          simp
        · simpa [here] using before
  | failed books =>
      exact ⟨books, fun live old => Nat.lt_succ_of_lt (sound.known live old), sound.pairs⟩
  | @replaced process i live next is same books =>
      refine ⟨?_, ?_, fun ring => ?_⟩
      · unfold World.holdings
        rw [List.flatMap_append]
        exact books
      · intro l mem
        rcases List.mem_append.mp mem with new | old
        · rw [(same l (Option.mem_toList.mp new)).1]
          exact sound.known live (List.mem_of_getElem? is)
        · exact sound.known l (List.mem_of_mem_eraseIdx old)
      · have before := sound.pairs ring
        rw [(perm_map_eraseIdx (·.ring) is).count_eq, List.count_cons] at before
        rw [List.map_append, List.count_append]
        cases next with
        | none => simp only [Option.toList_none, List.map_nil, List.count_nil]; omega
        | some l =>
            have kept := (same l rfl).1
            simp only [Option.toList_some, List.map_cons, List.map_nil, List.count_singleton, kept]
            omega
  | nothing => exact sound

/-- Faithful acts leave each ring with at most one value in each role. -/
theorem ends_nodup_of_moves (sound : Sound w) (single : w.ends.Nodup) {act : Act} {w' : World}
    (faithful : act.Faithful w) (moves : Moves w act w') : w'.ends.Nodup := by
  unfold World.ends at single ⊢
  cases moves with
  | created books =>
      have new (role : Role) : (w.rings, role) ∉ w.live.map fun l => (l.ring, l.role) := by
        intro mem
        obtain ⟨live, old, is⟩ := List.mem_map.mp mem
        exact sound.fresh (List.mem_map.mpr ⟨live, old, (Prod.mk.inj is).1⟩)
      rw [List.map_cons, List.map_cons]
      refine List.nodup_cons.mpr ⟨?_, List.nodup_cons.mpr ⟨new .consumer, single⟩⟩
      rw [List.mem_cons, not_or]
      exact ⟨by simp, new .producer⟩
  | failed books => exact single
  | @replaced process i live next is same books =>
      rw [(perm_map_eraseIdx (fun l => (l.ring, l.role)) is).nodup_iff] at single
      rw [List.map_append]
      cases next with
      | none => exact (List.nodup_cons.mp single).2
      | some l =>
          obtain ⟨ring, role⟩ := same l rfl
          simpa [ring, role faithful] using single
  | nothing => exact single

theorem Sound.run (sound : Sound w) (acts : List Act) : Sound (w.run acts) := by
  induction acts generalizing w with
  | nil => exact sound
  | cons act rest ih => exact ih (sound.moves (step_moves sound.books act))

theorem ends_nodup_of_faithful (sound : Sound w) (single : w.ends.Nodup) {acts : List Act}
    (faithful : FaithfulRun w acts) : (w.run acts).ends.Nodup := by
  induction acts generalizing w with
  | nil => exact single
  | cons act rest ih =>
      obtain ⟨now, later⟩ := faithful
      have moves := step_moves sound.books act
      exact ih (sound.moves moves) (ends_nodup_of_moves sound single now moves) later

/-- An adoption of an endpoint of a ring of two slots, where every call succeeds. -/
def sampleAdoption : AdoptCalls where
  fstat := .ok 512
  mmap := none
  header := ⟨ringMagic, wirelessAudioAbiVersion, UInt16.ofNat ringHeaderSize, 2, 128, 2, 0, 0, 0⟩
  asyncFd := none

/-- Endpoints are linear. Whatever a process does with rings and however its system
calls fail: the open descriptors and mappings are exactly those its endpoints and
descriptors hold, each held once, and none was closed twice; each is of the memory
or the eventfd of its ring; a `create` that fails leaves nothing open; and a ring
never has more than two holders. As long as every descriptor is adopted in the
role it came from, it has at most one producer and one consumer; the types do not
see to that, and a consumer's descriptor adopted by `Producer` makes a second
producer. -/
theorem endpoints_linear (acts : List Act) :
    let w := World.start.run acts
    (∀ kind, (w.process.tables kind).Accounts (Process.handlesOf kind w.holdings)) ∧
    (∀ live ∈ w.live, ∀ holding ∈ live.holdings,
      w.process.behind holding.kind holding.handle = some holding.object) ∧
    (∀ sys slotCount payloadCapacity error,
      RingPair.create 64 sys slotCount payloadCapacity = .error error →
      ∃ process, (Endpoint.create w.rings sys slotCount payloadCapacity).outcome w.process =
        (.error error, process) ∧ process.Books w.holdings) ∧
    (∀ ring, (w.live.map (·.ring)).count ring ≤ 2) ∧
    (FaithfulRun .start acts → w.ends.Nodup) ∧
    (World.start.run [.create .calm 2 2, .intoDescriptor 1,
      .fromDescriptor 0 .producer sampleAdoption]).ends = [(0, .producer), (0, .producer)] := by
  intro w
  have sound : Sound w := sound_start.run acts
  refine ⟨sound.books.accounts, ?_, ?_, sound.pairs, ?_, by decide +kernel⟩
  · intro live mem holding part
    exact sound.books.behind holding (List.mem_flatMap.mpr ⟨live, mem, part⟩)
  · intro sys slotCount payloadCapacity error fails
    have done := Endpoint.create_refines w.rings sys slotCount payloadCapacity w.process sound.books
    rw [fails] at done
    rcases done.cases with ⟨_, _, -, ⟨⟩, -⟩ | ⟨e, result, ⟨⟩, books⟩
    exact ⟨_, Prod.ext result rfl, books⟩
  · exact ends_nodup_of_faithful sound_start List.nodup_nil

end Dorsche.Wireless.DataPlane

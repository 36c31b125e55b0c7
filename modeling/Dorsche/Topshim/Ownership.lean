import Dorsche.Topshim.Capture

/-!
Who owns a capture descriptor.

`World.fds` lists the descriptors of all owners: C++ frames, adoptions that wait
for their fence, Rust frames, other callers and unrelated code. The books of a
world balance when these are exactly the open descriptors, each listed once
(`Lib.Table.Accounts`), and likewise for the mappings. Each function has one
lemma that says which descriptors it needs and which it leaves.

One step loses a descriptor: `from_cpp` of a frame whose buffer was taken and
whose fence was not (`Strands`). Every other step keeps the books.
-/

namespace Dorsche.Topshim

open Dorsche.Lib

/-! ### Owners -/

def HardwareFrame.fds (frame : HardwareFrame) : List Nat :=
  frame.bufferFd.toList ++ frame.fenceFd.toList

def HardwareFrame.maps (frame : HardwareFrame) : List Nat := frame.writableMapping.toList

def Adoption.fds (adoption : Adoption) : List Nat := [adoption.buffer, adoption.fence]

def SharedPcmFrame.fds (frame : SharedPcmFrame) : List Nat := [frame.buffer]

def SharedPcmFrame.maps (frame : SharedPcmFrame) : List Nat := [frame.mapping]

/-- What the live objects of one kind hold. -/
def held {α : Type} (holds : α → List Nat) (objects : List (Option α)) : List Nat :=
  objects.flatMap fun object => (object.map holds).getD []

/-- The descriptors of every owner. -/
def World.fds (w : World) : List Nat :=
  held HardwareFrame.fds w.frames ++ held Adoption.fds w.adoptions ++
    held SharedPcmFrame.fds w.shared ++ w.taken ++ w.unrelated

/-- The mappings of every owner. -/
def World.maps (w : World) : List Nat :=
  held HardwareFrame.maps w.frames ++ held SharedPcmFrame.maps w.shared

section Held

variable {α : Type} (holds : α → List Nat) {objects : List (Option α)}

theorem held_nil (objects : List (Option α)) : held (fun _ => []) objects = [] := by
  refine List.flatMap_eq_nil_iff.mpr fun object _ => ?_
  cases object with
  | none => rfl
  | some a => rfl

theorem held_append (a : α) : held holds (objects ++ [some a]) = held holds objects ++ holds a := by
  simp [held]

/-- One object among the others: what it holds, and what they hold when it is
replaced. -/
theorem held_set {i : Nat} {a : α} (is : objects[i]?.join = some a) :
    ∃ rest, (held holds objects).Perm (holds a ++ rest) ∧
      ∀ object : Option α, (held holds (objects.set i object)).Perm
        ((object.map holds).getD [] ++ rest) := by
  obtain ⟨inside, there⟩ : ∃ inside : i < objects.length, objects[i] = some a := by
    simpa [Option.join_eq_some_iff, List.getElem?_eq_some_iff] using is
  refine ⟨held holds (objects.take i) ++ held holds (objects.drop (i + 1)), ?_, fun object => ?_⟩
  · have split : objects = objects.take i ++ some a :: objects.drop (i + 1) := by
      rw [← there, List.getElem_cons_drop, List.take_append_drop]
    nth_rewrite 1 [split]
    simp only [held, List.flatMap_append, List.flatMap_cons, Option.map_some, Option.getD_some]
    exact List.perm_append_comm_assoc ..
  · rw [List.set_eq_take_cons_drop _ inside]
    simp only [held, List.flatMap_append, List.flatMap_cons]
    exact List.perm_append_comm_assoc ..

end Held

/-! ### Books -/

/-- Both tables balance. -/
structure Books (k : Kernel) (fds maps : List Nat) : Prop where
  fds : k.fds.Accounts fds
  maps : k.maps.Accounts maps

variable {k : Kernel} {fds maps : List Nat}

theorem Books.perm {fds' maps' : List Nat} (books : Books k fds maps) (permFds : fds.Perm fds')
    (permMaps : maps.Perm maps') : Books k fds' maps' :=
  ⟨books.fds.perm permFds, books.maps.perm permMaps⟩

/-- What a program ensures from a state on. -/
def Ensures {α : Type} (p : Posix α) (k : Kernel) (Q : α → Kernel → Prop) : Prop :=
  Q (p.run k).1 (p.run k).2

section Rules

variable {α β : Type} {p : Posix α} {Q : α → Kernel → Prop} {R : β → Kernel → Prop}

theorem Ensures.pure {a : α} (post : Q a k) : Ensures (Pure.pure a) k Q := post

theorem Ensures.bind {f : α → Posix β} (first : Ensures p k Q)
    (next : ∀ a k, Q a k → Ensures (f a) k R) : Ensures (p >>= f) k R := next _ _ first

theorem Books.openFd {rest : Nat → Posix α} (books : Books k fds maps)
    (next : ∀ fd k, Books k (fd :: fds) maps → Ensures (rest fd) k Q) :
    Ensures (Topshim.openFd >>= rest) k Q := next _ _ ⟨books.fds.acquire, books.maps⟩

theorem Books.closeFd {fd : Nat} {rest : Unit → Posix α} (books : Books k (fd :: fds) maps)
    (next : ∀ k, Books k fds maps → Ensures (rest ()) k Q) :
    Ensures (Topshim.closeFd fd >>= rest) k Q := next _ ⟨books.fds.release, books.maps⟩

theorem Books.mapMemory {rest : Nat → Posix α} (books : Books k fds maps)
    (next : ∀ mapping k, Books k fds (mapping :: maps) → Ensures (rest mapping) k Q) :
    Ensures (Topshim.mapMemory >>= rest) k Q := next _ _ ⟨books.fds, books.maps.acquire⟩

theorem Books.unmapMemory {mapping : Nat} {rest : Unit → Posix α}
    (books : Books k fds (mapping :: maps))
    (next : ∀ k, Books k fds maps → Ensures (rest ()) k Q) :
    Ensures (Topshim.unmapMemory mapping >>= rest) k Q := next _ ⟨books.fds, books.maps.release⟩

end Rules

/-! ### C++ -/

/-- The books after a call whose result may own a descriptor. -/
def Yields {α : Type} (fdsOf mapsOf : α → List Nat) (fds maps : List Nat) (result : Result α)
    (k : Kernel) : Prop :=
  match result with
  | .ok a => Books k (fdsOf a ++ fds) (mapsOf a ++ maps)
  | .error _ => Books k fds maps

theorem createMemfd_books (calls : CaptureCalls) (books : Books k fds maps) :
    Ensures (createMemfd calls) k fun fd k => Books k (fd.toList ++ fds) maps := by
  unfold createMemfd
  cases calls.memfdCreate with
  | false => exact .pure books
  | true =>
      simp only [if_true]
      apply books.openFd
      intro fd k books
      cases calls.ftruncate with
      | true => exact .pure books
      | false =>
          simp only [Bool.false_eq_true, if_false]
          apply books.closeFd
          exact fun k books => .pure books

theorem allocateMemfd_books (calls : CaptureCalls) (books : Books k fds maps) :
    Ensures (allocateMemfd calls) k (Yields (fun out => [out.1]) (fun _ => []) fds maps) := by
  unfold allocateMemfd
  apply (createMemfd_books calls books).bind
  intro fd k books
  cases fd with
  | none => exact .pure books
  | some fd => exact .pure books

theorem allocateSharedAudio_books (calls : CaptureCalls) (books : Books k fds maps) :
    Ensures (allocateSharedAudio calls) k (Yields (fun out => [out.1]) (fun _ => []) fds maps) := by
  unfold allocateSharedAudio
  cases calls.openHeap with
  | false => exact allocateMemfd_books calls books
  | true =>
      simp only [if_true]
      apply books.openFd
      intro heap k books
      cases calls.allocDmaBuf with
      | true =>
          simp only [if_true]
          apply books.openFd
          intro fd k books
          apply (books.perm (.swap heap fd fds) .rfl).closeFd
          exact fun k books => .pure books
      | false =>
          simp only [Bool.false_eq_true, if_false]
          apply books.closeFd
          exact fun k books => allocateMemfd_books calls books

/-- The constructor owns what a new frame holds; when it throws, nothing is left. -/
theorem HardwareFrame.new_books (calls : CaptureCalls) (info : FrameInfo)
    (books : Books k fds maps) :
    Ensures (HardwareFrame.new calls info) k
      (Yields HardwareFrame.fds HardwareFrame.maps fds maps) := by
  unfold HardwareFrame.new
  apply (allocateSharedAudio_books calls books).bind
  intro allocated k books
  match allocated with
  | .error e => exact .pure books
  | .ok (buffer, dmaBuf) =>
      change Books k (buffer :: fds) maps at books
      cases calls.mmap with
      | false =>
          simp only [Bool.false_eq_true, if_false]
          apply books.closeFd
          exact fun k books => .pure books
      | true =>
          simp only [if_true]
          apply books.mapMemory
          intro mapping k books
          cases calls.eventfd with
          | false =>
              simp only [Bool.false_eq_true, if_false]
              apply books.unmapMemory
              intro k books
              apply books.closeFd
              exact fun k books => .pure books
          | true =>
              simp only [if_true]
              apply books.openFd
              intro fence k books
              cases calls.write with
              | false =>
                  simp only [Bool.false_eq_true, if_false]
                  apply books.closeFd
                  intro k books
                  apply books.unmapMemory
                  intro k books
                  apply books.closeFd
                  exact fun k books => .pure books
              | true => exact .pure (books.perm (.swap buffer fence fds) .rfl)

theorem ifPresent_closeFd {fd : Option Nat} (books : Books k (fd.toList ++ fds) maps) :
    Ensures (HardwareFrame.ifPresent closeFd fd) k fun _ k => Books k fds maps := by
  cases fd with
  | none => exact books
  | some fd => exact ⟨books.fds.release, books.maps⟩

theorem ifPresent_unmapMemory {mapping : Option Nat}
    (books : Books k fds (mapping.toList ++ maps)) :
    Ensures (HardwareFrame.ifPresent unmapMemory mapping) k fun _ k => Books k fds maps := by
  cases mapping with
  | none => exact books
  | some mapping => exact ⟨books.fds, books.maps.release⟩

theorem HardwareFrame.destroy_books {frame : HardwareFrame}
    (books : Books k (frame.fds ++ fds) (frame.maps ++ maps)) :
    Ensures frame.destroy k fun _ k => Books k fds maps := by
  unfold HardwareFrame.destroy
  apply (ifPresent_unmapMemory books).bind
  intro _ k books
  unfold HardwareFrame.fds at books
  rw [List.append_assoc] at books
  apply (ifPresent_closeFd books).bind
  exact fun _ k books => ifPresent_closeFd books

/-- Taking the buffer moves it from the frame to the caller. -/
theorem HardwareFrame.takeBufferFd_books {frame : HardwareFrame}
    (books : Books k (frame.fds ++ fds) (frame.maps ++ maps)) :
    Ensures frame.takeBufferFd k fun out k =>
      Books k (out.1.toList ++ (out.2.fds ++ fds)) (out.2.maps ++ maps) ∧
        out.1 = frame.bufferFd ∧
        out.2 = { frame with bufferFd := none, writableMapping := none } := by
  unfold HardwareFrame.takeBufferFd
  apply (ifPresent_unmapMemory books).bind
  intro _ k books
  unfold HardwareFrame.fds at books
  rw [List.append_assoc] at books
  exact .pure ⟨books, rfl, rfl⟩

/-! ### Rust -/

/-- The frame that `from_cpp` cannot adopt without losing its fence: the buffer was
taken, the fence was not. -/
def HardwareFrame.Strands (frame : HardwareFrame) : Prop :=
  frame.info.sampleCount * 4 < 2 ^ 64 ∧ frame.bufferFd = none ∧ frame.fenceFd ≠ none

instance (frame : HardwareFrame) : Decidable frame.Strands := by
  unfold HardwareFrame.Strands
  infer_instance

/-- The descriptor that is left without an owner. -/
def HardwareFrame.lost (frame : HardwareFrame) : List Nat :=
  if frame.Strands then frame.fenceFd.toList else []

/-- `from_cpp` takes over what the frame holds, or releases it, up to the fence of a
frame that strands it. -/
theorem SharedPcmFrame.fromCpp_books {frame : HardwareFrame}
    (books : Books k (frame.fds ++ fds) (frame.maps ++ maps)) :
    Ensures (SharedPcmFrame.fromCpp (some frame)) k
      (Yields Adoption.fds (fun _ => []) (frame.lost ++ fds) maps) := by
  unfold SharedPcmFrame.fromCpp
  by_cases short : frame.info.sampleCount * 4 < 2 ^ 64
  case neg =>
    have kept : frame.lost = [] := if_neg fun strands => short strands.1
    simp only [short, if_false, kept, List.nil_append]
    apply (HardwareFrame.destroy_books books).bind
    exact fun _ k books => .pure books
  simp only [short, if_true]
  apply (HardwareFrame.takeBufferFd_books books).bind
  rintro ⟨buffer, raw⟩ k ⟨books, rfl, rfl⟩
  change Books k (frame.bufferFd.toList ++ (frame.fenceFd.toList ++ fds)) maps at books
  change Ensures (SharedPcmFrame.adopt _ frame.bufferFd frame.fenceFd) k _
  cases present : frame.bufferFd with
  | none =>
      rw [present] at books
      have lost : frame.lost = frame.fenceFd.toList := by
        by_cases gone : frame.fenceFd = none
        · rw [HardwareFrame.lost, gone]
          simp
        · exact if_pos ⟨short, present, gone⟩
      rw [lost]
      exact .pure books
  | some buffer =>
      have kept : frame.lost = [] := if_neg fun strands => by
        rw [strands.2.1] at present
        cases present
      rw [present] at books
      rw [kept]
      cases there : frame.fenceFd with
      | none =>
          rw [there] at books
          apply Books.closeFd books
          exact fun k books => .pure books
      | some fence =>
          rw [there] at books
          exact .pure books

theorem SharedPcmFrame.finish_books {adoption : Adoption} (outcome : SharedPcmFrame.Outcome)
    (books : Books k (adoption.fds ++ fds) maps) :
    Ensures (SharedPcmFrame.finish adoption outcome) k
      (Yields SharedPcmFrame.fds SharedPcmFrame.maps fds maps) := by
  have fenced : Books k (adoption.fence :: adoption.buffer :: fds) maps :=
    books.perm (.swap _ _ _) .rfl
  cases outcome with
  | fenceFails _ | mapFails _ =>
      apply fenced.closeFd
      intro k books
      apply books.closeFd
      exact fun k books => .pure books
  | shortMapping | misaligned =>
      apply fenced.closeFd
      intro k books
      apply books.mapMemory
      intro mapping k books
      apply books.unmapMemory
      intro k books
      apply books.closeFd
      exact fun k books => .pure books
  | succeeds =>
      apply fenced.closeFd
      intro k books
      apply books.mapMemory
      exact fun mapping k books => .pure books

theorem SharedPcmFrame.cancel_books {adoption : Adoption}
    (books : Books k (adoption.fds ++ fds) maps) :
    Ensures (SharedPcmFrame.cancel adoption) k fun _ k => Books k fds maps := by
  have fenced : Books k (adoption.fence :: adoption.buffer :: fds) maps :=
    books.perm (.swap _ _ _) .rfl
  apply fenced.closeFd
  exact fun k books => ⟨books.fds.release, books.maps⟩

theorem SharedPcmFrame.drop_books {frame : SharedPcmFrame}
    (books : Books k (frame.fds ++ fds) (frame.maps ++ maps)) :
    Ensures frame.drop k fun _ k => Books k fds maps := by
  have listed : Books k (frame.buffer :: fds) (frame.mapping :: maps) := books
  apply listed.closeFd
  exact fun k books => ⟨books.fds, books.maps.release⟩

/-! ### Runs -/

/-- The descriptor that an event leaves without an owner. -/
def World.lost (w : World) : Event → List Nat
  | .adopt i => (w.frames[i]?.join.map HardwareFrame.lost).getD []
  | _ => []

variable {w w' : World} {event : Event}

/-- A result that owns something becomes an object that holds it. -/
theorem Yields.pushed {α : Type} {fdsOf mapsOf : α → List Nat} {result : Result α}
    (yields : Yields fdsOf mapsOf fds maps result k) (objects : List (Option α)) :
    ∃ fds' maps', Books k (fds' ++ fds) (maps' ++ maps) ∧
      held fdsOf (World.push objects result) = held fdsOf objects ++ fds' ∧
      held mapsOf (World.push objects result) = held mapsOf objects ++ maps' := by
  cases result with
  | error e => exact ⟨[], [], yields, (List.append_nil _).symm, (List.append_nil _).symm⟩
  | ok a => exact ⟨fdsOf a, mapsOf a, yields, held_append _ a, held_append _ a⟩

/-- The books with one frame set apart. -/
theorem World.frame_books {gone : List Nat} {i : Nat} {frame : HardwareFrame}
    (books : Books w.kernel (gone ++ w.fds) w.maps) (is : w.frames[i]?.join = some frame) :
    ∃ fds maps, Books w.kernel (frame.fds ++ fds) (frame.maps ++ maps) ∧
      ∀ object : Option HardwareFrame,
        (gone ++ { w with frames := w.frames.set i object }.fds).Perm
          ((object.map HardwareFrame.fds).getD [] ++ fds) ∧
        { w with frames := w.frames.set i object }.maps.Perm
          ((object.map HardwareFrame.maps).getD [] ++ maps) := by
  obtain ⟨restFds, beforeFds, afterFds⟩ := held_set HardwareFrame.fds is
  obtain ⟨restMaps, beforeMaps, afterMaps⟩ := held_set HardwareFrame.maps is
  refine ⟨gone ++ (restFds ++ held Adoption.fds w.adoptions ++ held SharedPcmFrame.fds w.shared ++
    w.taken ++ w.unrelated), restMaps ++ held SharedPcmFrame.maps w.shared, books.perm ?_ ?_,
    fun object => ⟨?_, ?_⟩⟩
  · refine List.perm_iff_count.mpr fun fd => ?_
    have := beforeFds.count_eq fd
    simp only [World.fds, List.count_append] at this ⊢
    omega
  · refine List.perm_iff_count.mpr fun mapping => ?_
    have := beforeMaps.count_eq mapping
    simp only [World.maps, List.count_append] at this ⊢
    omega
  · refine List.perm_iff_count.mpr fun fd => ?_
    have := (afterFds object).count_eq fd
    simp only [World.fds, List.count_append] at this ⊢
    omega
  · refine List.perm_iff_count.mpr fun mapping => ?_
    have := (afterMaps object).count_eq mapping
    simp only [World.maps, List.count_append] at this ⊢
    omega

/-- The books with one adoption set apart. -/
theorem World.adoption_books {gone : List Nat} {j : Nat} {adoption : Adoption}
    (books : Books w.kernel (gone ++ w.fds) w.maps) (is : w.adoptions[j]?.join = some adoption) :
    ∃ fds, Books w.kernel (adoption.fds ++ fds) w.maps ∧
      (gone ++ { w with adoptions := w.adoptions.set j none }.fds).Perm fds := by
  obtain ⟨rest, before, after⟩ := held_set Adoption.fds is
  refine ⟨gone ++ (held HardwareFrame.fds w.frames ++ rest ++ held SharedPcmFrame.fds w.shared ++
    w.taken ++ w.unrelated), books.perm ?_ .rfl, ?_⟩
  · refine List.perm_iff_count.mpr fun fd => ?_
    have := before.count_eq fd
    simp only [World.fds, List.count_append] at this ⊢
    omega
  · refine List.perm_iff_count.mpr fun fd => ?_
    have := (after none).count_eq fd
    simp only [World.fds, Option.map_none, Option.getD_none, List.count_append,
      List.count_nil] at this ⊢
    omega

/-- The books with one shared frame set apart. -/
theorem World.shared_books {gone : List Nat} {j : Nat} {frame : SharedPcmFrame}
    (books : Books w.kernel (gone ++ w.fds) w.maps) (is : w.shared[j]?.join = some frame) :
    ∃ fds maps, Books w.kernel (frame.fds ++ fds) (frame.maps ++ maps) ∧
      (gone ++ { w with shared := w.shared.set j none }.fds).Perm fds ∧
      { w with shared := w.shared.set j none }.maps.Perm maps := by
  obtain ⟨restFds, beforeFds, afterFds⟩ := held_set SharedPcmFrame.fds is
  obtain ⟨restMaps, beforeMaps, afterMaps⟩ := held_set SharedPcmFrame.maps is
  refine ⟨gone ++ (held HardwareFrame.fds w.frames ++ held Adoption.fds w.adoptions ++ restFds ++
    w.taken ++ w.unrelated), held HardwareFrame.maps w.frames ++ restMaps, books.perm ?_ ?_, ?_, ?_⟩
  · refine List.perm_iff_count.mpr fun fd => ?_
    have := beforeFds.count_eq fd
    simp only [World.fds, List.count_append] at this ⊢
    omega
  · refine List.perm_iff_count.mpr fun mapping => ?_
    have := beforeMaps.count_eq mapping
    simp only [World.maps, List.count_append] at this ⊢
    omega
  · refine List.perm_iff_count.mpr fun fd => ?_
    have := (afterFds none).count_eq fd
    simp only [World.fds, Option.map_none, Option.getD_none, List.count_append,
      List.count_nil] at this ⊢
    omega
  · refine List.perm_iff_count.mpr fun mapping => ?_
    have := (afterMaps none).count_eq mapping
    simp only [World.maps, Option.map_none, Option.getD_none, List.count_append,
      List.count_nil] at this ⊢
    omega

/-- Step lemma: every event keeps the books, with what it loses listed too. -/
theorem World.step_books (gone : List Nat) (books : Books w.kernel (gone ++ w.fds) w.maps)
    (stepped : w.step event = some w') :
    Books w'.kernel (w.lost event ++ gone ++ w'.fds) w'.maps := by
  cases event with
  | capture calls info =>
      obtain rfl := Option.some.inj stepped
      obtain ⟨fds', maps', books', eqFds, eqMaps⟩ :=
        Yields.pushed (HardwareFrame.new_books calls info books) w.frames
      refine books'.perm ?_ ?_
      · refine List.perm_iff_count.mpr fun fd => ?_
        simp only [World.fds, World.lost, eqFds, List.count_append, List.count_nil]
        omega
      · refine List.perm_iff_count.mpr fun mapping => ?_
        simp only [World.maps, eqMaps, List.count_append]
        omega
  | takeBufferFd i =>
      obtain ⟨frame, is, rfl⟩ := Option.map_eq_some_iff.mp stepped
      obtain ⟨fds, maps, books, apart⟩ := World.frame_books books is
      obtain ⟨books', -, -⟩ := HardwareFrame.takeBufferFd_books books
      obtain ⟨permFds, permMaps⟩ := apart (some (frame.takeBufferFd.run w.kernel).1.2)
      refine books'.perm ?_ permMaps.symm
      refine List.perm_iff_count.mpr fun fd => ?_
      have := permFds.count_eq fd
      simp only [World.fds, World.lost, Option.map_some, Option.getD_some, List.count_append,
        List.count_nil] at this ⊢
      omega
  | takeFenceFd i =>
      obtain ⟨frame, is, rfl⟩ := Option.map_eq_some_iff.mp stepped
      obtain ⟨fds, maps, books, apart⟩ := World.frame_books books is
      obtain ⟨permFds, permMaps⟩ := apart (some frame.takeFenceFd.2)
      refine books.perm ?_ permMaps.symm
      refine List.perm_iff_count.mpr fun fd => ?_
      have := permFds.count_eq fd
      simp only [World.fds, World.lost, Option.map_some, Option.getD_some, HardwareFrame.fds,
        HardwareFrame.takeFenceFd, Option.toList_none, List.count_append, List.count_nil] at this ⊢
      omega
  | destroy i =>
      obtain ⟨frame, is, rfl⟩ := Option.map_eq_some_iff.mp stepped
      obtain ⟨fds, maps, books, apart⟩ := World.frame_books books is
      obtain ⟨permFds, permMaps⟩ := apart none
      exact Books.perm (HardwareFrame.destroy_books books) permFds.symm permMaps.symm
  | adoptNull =>
      obtain rfl := Option.some.inj stepped
      exact books
  | adopt i =>
      obtain ⟨frame, is, rfl⟩ := Option.map_eq_some_iff.mp stepped
      obtain ⟨fds, maps, books, apart⟩ := World.frame_books books is
      obtain ⟨fds', maps', books', eqFds, eqMaps⟩ :=
        Yields.pushed (SharedPcmFrame.fromCpp_books books) w.adoptions
      obtain ⟨permFds, permMaps⟩ := apart none
      obtain rfl : maps' = [] := by simpa [held_nil] using eqMaps
      refine books'.perm ?_ permMaps.symm
      refine List.perm_iff_count.mpr fun fd => ?_
      have := permFds.count_eq fd
      simp only [World.fds, World.lost, is, eqFds, Option.map_some, Option.map_none,
        Option.getD_some, Option.getD_none, List.count_append, List.count_nil] at this ⊢
      omega
  | finish j outcome =>
      obtain ⟨adoption, is, rfl⟩ := Option.map_eq_some_iff.mp stepped
      obtain ⟨fds, books, apart⟩ := World.adoption_books books is
      obtain ⟨fds', maps', books', eqFds, eqMaps⟩ :=
        Yields.pushed (SharedPcmFrame.finish_books outcome books) w.shared
      refine books'.perm ?_ ?_
      · refine List.perm_iff_count.mpr fun fd => ?_
        have := apart.count_eq fd
        simp only [World.fds, World.lost, eqFds, List.count_append, List.count_nil] at this ⊢
        omega
      · refine List.perm_iff_count.mpr fun mapping => ?_
        simp only [World.maps, eqMaps, List.count_append]
        omega
  | cancel j =>
      obtain ⟨adoption, is, rfl⟩ := Option.map_eq_some_iff.mp stepped
      obtain ⟨fds, books, apart⟩ := World.adoption_books books is
      exact Books.perm (SharedPcmFrame.cancel_books books) apart.symm .rfl
  | drop j =>
      obtain ⟨frame, is, rfl⟩ := Option.map_eq_some_iff.mp stepped
      obtain ⟨fds, maps, books, apartFds, apartMaps⟩ := World.shared_books books is
      exact Books.perm (SharedPcmFrame.drop_books books) apartFds.symm apartMaps.symm
  | callerCloses fd =>
      simp only [World.step] at stepped
      split at stepped
      case isFalse => cases stepped
      case isTrue mine =>
        obtain rfl := Option.some.inj stepped
        have apart : Books w.kernel (fd :: (gone ++ (held HardwareFrame.fds w.frames ++
            held Adoption.fds w.adoptions ++ held SharedPcmFrame.fds w.shared ++
            w.taken.erase fd ++ w.unrelated))) w.maps := by
          refine books.perm (List.perm_iff_count.mpr fun other => ?_) .rfl
          have := (List.perm_cons_erase mine).count_eq other
          simp only [World.fds, List.count_append, List.count_cons] at this ⊢
          omega
        exact ⟨apart.fds.release, apart.maps⟩
  | unrelatedOpens =>
      obtain rfl := Option.some.inj stepped
      refine Books.perm ⟨books.fds.acquire, books.maps⟩ (List.perm_iff_count.mpr fun fd => ?_) .rfl
      simp only [World.fds, World.lost, openFd, StateT.run, List.count_append, List.count_cons,
        List.count_nil]
      omega
  | unrelatedCloses fd =>
      simp only [World.step] at stepped
      split at stepped
      case isFalse => cases stepped
      case isTrue mine =>
        obtain rfl := Option.some.inj stepped
        have apart : Books w.kernel (fd :: (gone ++ (held HardwareFrame.fds w.frames ++
            held Adoption.fds w.adoptions ++ held SharedPcmFrame.fds w.shared ++
            w.taken ++ w.unrelated.erase fd))) w.maps := by
          refine books.perm (List.perm_iff_count.mpr fun other => ?_) .rfl
          have := (List.perm_cons_erase mine).count_eq other
          simp only [World.fds, List.count_append, List.count_cons] at this ⊢
          omega
        exact ⟨apart.fds.release, apart.maps⟩

/-! ### Linearity -/

/-- An instance is behind one owned handle and was never released, or it is behind
none and was released once. -/
def OnceOnly (t : Table) (owned : List Nat) : Prop :=
  ∀ i < t.opened, (∃ handle ∈ owned, t.find handle = some i ∧ t.released.count i = 0) ∨
    (∀ handle, t.find handle ≠ some i) ∧ t.released.count i = 1

/-- Linear ownership. When no C++ frame is alive, the open descriptors are those of
Rust (both of an adoption that waits, the buffer of a shared frame), those other
callers took and those of unrelated code. -/
structure World.Linear (w : World) : Prop where
  fdsOnce : OnceOnly w.kernel.fds w.fds
  mapsOnce : OnceOnly w.kernel.maps w.maps
  fdsApart : w.fds.Nodup
  mapsApart : w.maps.Nodup
  noStrayClose : w.kernel.fds.strays = 0
  noStrayUnmap : w.kernel.maps.strays = 0
  settled : (∀ frame ∈ w.frames, frame = none) → ∀ fd, (w.kernel.fds.find fd).isSome ↔
    fd ∈ held Adoption.fds w.adoptions ++ held SharedPcmFrame.fds w.shared ++ w.taken ++
      w.unrelated

theorem held_of_gone {α : Type} (holds : α → List Nat) {objects : List (Option α)}
    (gone : ∀ object ∈ objects, object = none) : held holds objects = [] :=
  List.flatMap_eq_nil_iff.mpr fun object mem => by rw [gone object mem]; rfl

theorem World.linear_of_books (books : Books w.kernel w.fds w.maps) : w.Linear where
  fdsOnce := fun _ lt => books.fds.fate lt
  mapsOnce := fun _ lt => books.maps.fate lt
  fdsApart := books.fds.nodup
  mapsApart := books.maps.nodup
  noStrayClose := books.fds.strays
  noStrayUnmap := books.maps.strays
  settled := by
    intro gone fd
    rw [← books.fds.mem_iff fd, World.fds, held_of_gone _ gone, List.nil_append]

/-- A descriptor without an owner is not accounted for. -/
theorem World.not_linear_of_lost {fd : Nat} (books : Books w.kernel (fd :: w.fds) w.maps) :
    ¬ w.Linear := by
  intro linear
  obtain ⟨unowned, -⟩ := List.nodup_cons.mp books.fds.nodup
  obtain ⟨i, behind⟩ := Option.isSome_iff_exists.mp
    ((books.fds.mem_iff fd).mp List.mem_cons_self)
  rcases linear.fdsOnce i (books.fds.lt fd i behind) with ⟨other, owned, same, -⟩ | ⟨gone, -⟩
  · rw [books.fds.inj other fd i same behind] at owned
    exact unowned owned
  · exact gone fd behind

/-- The event is an adoption of a frame that strands its fence. -/
def World.Strands (w : World) (event : Event) : Prop :=
  ∃ i frame, event = .adopt i ∧ w.frames[i]?.join = some frame ∧ frame.Strands

theorem World.lost_of_not_strands (kept : ¬ w.Strands event) : w.lost event = [] := by
  cases event with
  | adopt i =>
      cases is : w.frames[i]?.join with
      | none => simp [World.lost, is]
      | some frame =>
          have : ¬ frame.Strands := fun strands => kept ⟨i, frame, rfl, is, strands⟩
          simp [World.lost, is, HardwareFrame.lost, this]
  | _ => rfl

theorem World.lost_of_strands (strands : w.Strands event) : ∃ fd, w.lost event = [fd] := by
  obtain ⟨i, frame, rfl, is, strands⟩ := strands
  obtain ⟨fd, there⟩ := Option.ne_none_iff_exists'.mp strands.2.2
  exact ⟨fd, by simp [World.lost, is, HardwareFrame.lost, strands, there]⟩

/-- Run lemma: from a world whose books balance, ownership stays linear exactly as
long as no adoption strands a fence. -/
theorem World.linear_run_iff {events : List Event} {last : World}
    (books : Books w.kernel w.fds w.maps) (ran : w.run events = some last) :
    (∀ n w', w.run (events.take n) = some w' → w'.Linear) ↔
      ∀ n w' event, w.run (events.take n) = some w' → events[n]? = some event →
        ¬ w'.Strands event := by
  induction events generalizing w with
  | nil =>
      constructor
      · intro _ n w' event _ none
        simp at none
      · intro _ n w' is
        rw [List.take_nil] at is
        obtain rfl := Option.some.inj is
        exact World.linear_of_books books
  | cons event events ih =>
      obtain ⟨next, stepped, rest⟩ := Option.bind_eq_some_iff.mp ran
      have onward (n : Nat) :
          w.run ((event :: events).take (n + 1)) = next.run (events.take n) := by
        simp only [List.take_succ_cons, World.run, stepped]
        rfl
      have after := World.step_books [] books stepped
      rw [List.append_nil] at after
      by_cases strands : w.Strands event
      · -- The next world has a descriptor that nobody owns.
        obtain ⟨fd, lost⟩ := World.lost_of_strands strands
        rw [lost] at after
        constructor
        · intro linear
          refine absurd (linear 1 next ?_) (World.not_linear_of_lost after)
          rw [onward 0]
          rfl
        · intro clean
          exact absurd strands (clean 0 w event rfl rfl)
      · rw [World.lost_of_not_strands strands] at after
        have tail := ih after rest
        constructor
        · intro linear n w' event' is there
          cases n with
          | zero =>
              obtain rfl := Option.some.inj is
              obtain rfl := Option.some.inj there
              exact strands
          | succ n =>
              rw [onward] at is
              exact tail.mp (fun m v is => linear (m + 1) v (by rw [onward, is])) n w' event' is
                there
        · intro clean n w' is
          cases n with
          | zero =>
              obtain rfl := Option.some.inj is
              exact World.linear_of_books books
          | succ n =>
              rw [onward] at is
              exact tail.mpr (fun m v event' is there =>
                clean (m + 1) v event' (by rw [onward, is]) there) n w' is

/-- Descriptors and mappings of captures are owned linearly in every state of a run
exactly when the run never adopts a frame whose buffer descriptor was taken while
its fence descriptor was not. -/
theorem ownership_linear_iff {events : List Event} {last : World}
    (ran : World.initial.run events = some last) :
    (∀ n w, World.initial.run (events.take n) = some w → w.Linear) ↔
      ∀ n w event, World.initial.run (events.take n) = some w → events[n]? = some event →
        ¬ w.Strands event :=
  World.linear_run_iff ⟨.empty, .empty⟩ ran

/-- Every call of a capture succeeds, from the memfd on. -/
def captured : Event :=
  .capture ⟨false, false, true, true, true, true, true, ""⟩ ⟨160, 16000, 0, 0, false⟩

theorem ownership_linear_adopted_frame :
    ∃ w, World.initial.run [captured, .adopt 0, .finish 0 .succeeds] = some w ∧ w.fds = [0] ∧
      w.maps = [0] ∧ w.Linear := by
  have ran : (World.initial.run [captured, .adopt 0, .finish 0 .succeeds]).map
      (fun w => (w.fds, w.maps)) = some ([0], [0]) := by decide
  have first : (World.initial.run [captured]).bind
      (fun w => w.frames[0]?.join.bind HardwareFrame.bufferFd) = some 0 := by decide
  obtain ⟨w, ran, holds⟩ := Option.map_eq_some_iff.mp ran
  obtain ⟨fds, maps⟩ := Prod.mk.inj holds
  refine ⟨w, ran, fds, maps, (ownership_linear_iff ran).mpr ?_ 3 w ran⟩
  rintro n v event is there ⟨i, frame, rfl, at_i, -, taken, -⟩
  rcases n with _ | _ | _ | n
  · cases there
  · cases there
    rw [show World.initial.run ([captured, .adopt 0, .finish 0 .succeeds].take 1) =
      World.initial.run [captured] from rfl] at is
    rw [is, Option.bind_some, at_i, Option.bind_some, taken] at first
    cases first
  · cases there
  · cases there

/-- The buffer of a frame is taken, then the frame is adopted: descriptor 1, the
fence, stays open and belongs to nobody. -/
theorem ownership_not_linear :
    ∃ w, World.initial.run [captured, .takeBufferFd 0, .adopt 0] = some w ∧
      w.frames = [none] ∧ w.adoptions = [] ∧ w.taken = [0] ∧
      w.kernel.fds.slots = [some 0, some 1] ∧ ¬ w.Linear := by
  have ran : (World.initial.run [captured, .takeBufferFd 0, .adopt 0]).map
      (fun w => (w.frames, w.adoptions, w.taken, w.kernel.fds.slots, w.shared, w.unrelated)) =
      some ([none], [], [0], [some 0, some 1], [], []) := rfl
  obtain ⟨w, ran, holds⟩ := Option.map_eq_some_iff.mp ran
  simp only [Prod.mk.injEq] at holds
  obtain ⟨frames, adoptions, taken, slots, shared, unrelated⟩ := holds
  refine ⟨w, ran, frames, adoptions, taken, slots, fun linear => ?_⟩
  have settled := (linear.settled (by simp [frames]) 1).mp (by simp [Table.find, slots])
  simp [adoptions, shared, taken, unrelated, held] at settled

end Dorsche.Topshim

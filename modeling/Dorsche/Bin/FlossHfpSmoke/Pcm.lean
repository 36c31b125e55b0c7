import Dorsche.Lib.Delay
import Dorsche.Lib.Pairs

/-!
The PCM of `floss_hfp_smoke` (`src/bin/floss_hfp_smoke.rs`): what is counted of the
microphone, and what the playback half of `exercise_loopback` writes.

Both take each read of the socket on its own, two octets at a time, so they see the
same samples in two cuttings of a stream only if these leave the same octets over.
The playback half is a delay line; an index out of its bounds would be a panic, which
is `none` here.

The attenuation is a parameter, since the source computes it in floating point. The
sum of squares, which only a message reads, is left out.
-/

namespace Dorsche.Bin.FlossHfpSmoke

open Dorsche.Lib

inductive Codec where
  | cvsd
  | msbc
deriving DecidableEq, Repr

namespace Codec

def name : Codec → String
  | .cvsd => "CVSD"
  | .msbc => "mSBC"

def sampleRate : Codec → Nat
  | .cvsd => 8000
  | .msbc => 16000

def expectedBit : Codec → UInt8
  | .cvsd => 0b001
  | .msbc => 0b010

def disabledCodecs : Codec → Int32
  | .cvsd => 0b110
  | .msbc => 0b101

end Codec

/-- `i16::from_le_bytes`. -/
def fromLeBytes (sample : UInt8 × UInt8) : Int16 :=
  (sample.1.toUInt16 ||| sample.2.toUInt16 <<< 8).toInt16

/-- `i16::to_le_bytes`. -/
def toLeBytes (value : Int16) : UInt8 × UInt8 :=
  (value.toUInt16.toUInt8, (value.toUInt16 >>> 8).toUInt8)

/-- `i16::saturating_abs`. -/
def saturatingAbs (value : Int16) : Int16 :=
  if value = Int16.minValue then Int16.maxValue else value.abs

/-! ### Counting -/

structure CaptureStats where
  bytes : Nat
  samples : Nat
  peak : Int16
deriving DecidableEq, Repr

namespace CaptureStats

/-- `CaptureStats::default`. -/
def initial : CaptureStats := ⟨0, 0, 0⟩

def accountSample (self : CaptureStats) (sample : UInt8 × UInt8) : CaptureStats :=
  { self with
    samples := self.samples + 1
    peak := max self.peak (saturatingAbs (fromLeBytes sample)) }

def account (self : CaptureStats) (pcm : List UInt8) : CaptureStats :=
  (pairs pcm).foldl accountSample { self with bytes := self.bytes + pcm.length }

theorem foldl_accountSample_bytes (self : CaptureStats) (n : Nat) (samples : List (UInt8 × UInt8)) :
    samples.foldl accountSample { self with bytes := n } =
      { samples.foldl accountSample self with bytes := n } := by
  induction samples generalizing self with
  | nil => rfl
  | cons sample samples ih => exact ih (self.accountSample sample)

@[simp] theorem account_bytes (self : CaptureStats) (pcm : List UInt8) :
    (self.account pcm).bytes = self.bytes + pcm.length :=
  congrArg bytes (foldl_accountSample_bytes self _ _)

/-- Reads are counted as the samples of each of them, one after the other. -/
theorem foldl_account (self : CaptureStats) (reads : List (List UInt8)) :
    reads.foldl account self = (reads.flatMap pairs).foldl accountSample
      { self with bytes := self.bytes + reads.flatten.length } := by
  induction reads generalizing self with
  | nil => rfl
  | cons read reads ih =>
      have counted : ∀ n, { self.account read with bytes := n } =
          (pairs read).foldl accountSample { self with bytes := n } := fun n =>
        (foldl_accountSample_bytes { self with bytes := self.bytes + read.length } n _).symm
      rw [List.foldl_cons, ih, counted, account_bytes, List.flatMap_cons, List.foldl_append,
        List.flatten_cons, List.length_append, Nat.add_assoc]

end CaptureStats

/-! ### Attenuation -/

/-- The loop over the samples of a frame in `exercise_loopback`. -/
def attenuate (gain : Int16 → Int16) (frame : List UInt8) : List UInt8 :=
  mapPairs (fun sample => toLeBytes (gain (fromLeBytes sample))) frame

@[simp] theorem length_attenuate (gain : Int16 → Int16) (frame : List UInt8) :
    (attenuate gain frame).length = frame.length := length_mapPairs _ frame

/-! ### Where the reads end -/

/-- Two cuttings of a stream come to the same. -/
def Agree (reads reads' : List (List UInt8)) : Prop :=
  reads.foldl CaptureStats.account .initial = reads'.foldl CaptureStats.account .initial ∧
    ∀ gain, reads.flatMap (attenuate gain) = reads'.flatMap (attenuate gain)

theorem agree_of_spans {reads reads' : List (List UInt8)} (whole : reads.flatten = reads'.flatten)
    (spans : spansOf (reads.map List.length) = spansOf (reads'.map List.length)) :
    Agree reads reads' := by
  refine ⟨?_, fun gain => ?_⟩
  · rw [CaptureStats.foldl_account, CaptureStats.foldl_account, flatMap_pairs, flatMap_pairs, whole,
      spans]
  · unfold attenuate
    rw [flatMap_mapPairs, flatMap_mapPairs, whole, spans]

/-- The replacement that tells cuttings apart. -/
theorem attenuate_const (p : UInt8 × UInt8) :
    toLeBytes ((fun _ => 0x0101 : Int16 → Int16) (fromLeBytes p)) = (1, 1) := by
  show toLeBytes 0x0101 = (1, 1)
  decide

/-- The lengths of two cuttings of a stream decide whether they agree on every stream
and under every attenuation. They do exactly if they leave over the same octets. -/
theorem split_agree_iff {lengths lengths' : List Nat} (same : lengths.sum = lengths'.sum) :
    (∀ stream : List UInt8, stream.length = lengths.sum →
        Agree (cut lengths stream) (cut lengths' stream)) ↔
      spansOf lengths = spansOf lengths' := by
  constructor
  · intro agree
    have whole : (List.replicate lengths.sum (0 : UInt8)).length = lengths.sum :=
      List.length_replicate
    obtain ⟨-, outputs⟩ := agree (List.replicate lengths.sum 0) whole
    have out := outputs fun _ => 0x0101
    unfold attenuate at out
    rw [flatMap_mapPairs, flatMap_mapPairs, flatten_cut whole, flatten_cut (whole.trans same),
      lengths_cut whole, lengths_cut (whole.trans same)] at out
    refine eq_of_mapPairsAt (by decide : (0 : UInt8) ≠ 1) attenuate_const ?_ ?_
    · rw [width_spansOf, width_spansOf, same]
    · rw [width_spansOf, width_spansOf, ← same]
      exact out
  · intro spans stream whole
    apply agree_of_spans
    · rw [flatten_cut whole, flatten_cut (whole.trans same)]
    · rw [lengths_cut whole, lengths_cut (whole.trans same), spans]

/-- Reads of even length before the last one. -/
theorem split_agree_even_reads :
    Agree (cut [4, 2, 3] [1, 2, 3, 4, 5, 6, 7, 8, 9]) (cut [8, 1] [1, 2, 3, 4, 5, 6, 7, 8, 9]) := by
  have left : spansOf [4, 2, 3] = spans 9 := @spansOf_even [4, 2] (by decide) 3
  have right : spansOf [8, 1] = spans 9 := @spansOf_even [8] (by decide) 1
  have total : [4, 2, 3].sum = [8, 1].sum := rfl
  exact (split_agree_iff total).mpr (left.trans right.symm) _ rfl

/-- A read that ends inside a sample: the rest is decoded out of step, and the octet
before it is not attenuated. -/
theorem not_split_agree :
    let reads : List (List UInt8) := [[1], [0, 2, 0]]
    let whole : List (List UInt8) := [[1, 0, 2, 0]]
    reads.flatten = whole.flatten ∧
      reads.foldl CaptureStats.account .initial = ⟨4, 1, 512⟩ ∧
      whole.foldl CaptureStats.account .initial = ⟨4, 2, 2⟩ ∧
      reads.flatMap (attenuate fun _ => 0) = [1, 0, 0, 0] ∧
      whole.flatMap (attenuate fun _ => 0) = [0, 0, 0, 0] ∧ ¬ Agree reads whole := by
  refine ⟨by decide, by decide, by decide, by decide, by decide, fun agree => ?_⟩
  exact absurd agree.1 (by decide)

/-! ### Playback -/

/-- The variables of the playback half of `exercise_loopback`. -/
structure Player where
  bytes : Nat
  delayLine : List UInt8
  delayCursor : Nat
deriving DecidableEq, Repr

namespace Player

def start (delayBytes : Nat) : Player := ⟨0, List.replicate delayBytes 0, 0⟩

/-- The increment of `delay_cursor`, wrapped. -/
def advance (self : Player) : Player :=
  { self with
    delayCursor :=
      if self.delayCursor + 1 = self.delayLine.length then 0 else self.delayCursor + 1 }

/-- `std::mem::swap(byte, &mut delay_line[delay_cursor])`, and the increment. -/
def swap (self : Player) (byte : UInt8) : Option (UInt8 × Player) := do
  let old ← self.delayLine[self.delayCursor]?
  return (old, advance { self with delayLine := self.delayLine.set self.delayCursor byte })

def swaps (self : Player) : List UInt8 → Option (List UInt8 × Player)
  | [] => some ([], self)
  | byte :: rest => do
      let (old, self) ← self.swap byte
      let (olds, self) ← self.swaps rest
      return (old :: olds, self)

/-- What is written for a received frame. -/
def echo (self : Player) (gain : Int16 → Int16) (frame : List UInt8) :
    Option (List UInt8 × Player) :=
  let frame := attenuate gain frame
  if self.delayLine.isEmpty then some (frame, self) else self.swaps frame

/-- `bytes += octets`, after a write. -/
def wrote (self : Player) (octets : Nat) : Player := { self with bytes := self.bytes + octets }

/-- The loop over the received frames, with what it writes for each. -/
def receive (self : Player) (gain : Int16 → Int16) :
    List (List UInt8) → Option (List (List UInt8) × Player)
  | [] => some ([], self)
  | frame :: rest => do
      let (written, self) ← self.echo gain frame
      let (writes, self) ← (self.wrote written.length).receive gain rest
      return (written :: writes, self)

/-- `*byte = delay_line[delay_cursor]`, and the increment, for `n` octets. -/
def reads (self : Player) : Nat → Option (List UInt8 × Player)
  | 0 => some ([], self)
  | n + 1 => do
      let byte ← self.delayLine[self.delayCursor]?
      let (bytes, self) ← self.advance.reads n
      return (byte :: bytes, self)

/-- The loop `while remaining != 0`, for at most `turns` turns. -/
def drain (self : Player) (frameBytes : Nat) :
    Nat → Nat → Option (List (List UInt8) × Player)
  | _, 0 => some ([], self)
  | 0, _ + 1 => none
  | turns + 1, remaining@(_ + 1) => do
      let length := min remaining frameBytes
      let (piece, self) ← self.reads length
      let (pieces, self) ← (self.wrote length).drain frameBytes turns (remaining - length)
      return (piece :: pieces, self)

/-- The drain of the whole line, if there is one. -/
def finish (self : Player) (frameBytes turns : Nat) : Option (List (List UInt8) × Player) :=
  if self.delayLine.isEmpty then some ([], self)
  else self.drain frameBytes turns self.delayLine.length

end Player

/-- What the playback half writes while it receives, and after that. -/
structure Playback where
  echoed : List (List UInt8)
  drained : List (List UInt8)
  player : Player
deriving DecidableEq, Repr

/-- The playback half of `exercise_loopback` on the received frames, if no write fails. -/
def playback (gain : Int16 → Int16) (delayBytes frameBytes turns : Nat)
    (frames : List (List UInt8)) : Option Playback := do
  let (echoed, player) ← (Player.start delayBytes).receive gain frames
  let (drained, player) ← player.finish frameBytes turns
  return ⟨echoed, drained, player⟩

/-! ### The delay line of the playback half -/

section Line

variable {gain : Int16 → Int16} {line : DelayLine UInt8} {n : Nat}

/-- The variables of the playback half when its line is `line`. -/
def Player.of (line : DelayLine UInt8) (bytes : Nat) : Player := ⟨bytes, line.cells, line.cursor⟩

namespace Player

theorem start_eq (delayBytes : Nat) : start delayBytes = of (.blank delayBytes 0) 0 := rfl

@[simp] theorem delayLine_of : (of line n).delayLine = line.cells := rfl

@[simp] theorem delayCursor_of : (of line n).delayCursor = line.cursor := rfl

@[simp] theorem wrote_of (m : Nat) : (of line n).wrote m = of line (n + m) := rfl

theorem advance_eq {player : Player} (bound : player.delayCursor < player.delayLine.length) :
    player.advance = { player with
      delayCursor := DelayLine.following player.delayLine.length player.delayCursor } := by
  rw [DelayLine.following_of_lt bound, advance]

theorem advance_of (nonempty : line.cells ≠ []) : (of line n).advance = of line.skip n :=
  advance_eq (line.cursor_lt nonempty)

theorem swap_of (nonempty : line.cells ≠ []) (byte : UInt8) :
    (of line n).swap byte = some ((line.exchange byte).1, of (line.exchange byte).2 n) := by
  have bound := line.cursor_lt nonempty
  have oldest : line.cells[line.cursor]? = some (line.cells.getD line.cursor byte) := by
    rw [List.getD_eq_getElem _ _ bound, List.getElem?_eq_getElem bound]
  have moved : advance ⟨n, line.cells.set line.cursor byte, line.cursor⟩ =
      of (line.exchange byte).2 n := by
    rw [advance_eq (by rwa [List.length_set]), List.length_set]
    rfl
  simp only [swap, delayLine_of, delayCursor_of, oldest]
  exact congrArg (fun player => some ((line.exchange byte).1, player)) moved

theorem swaps_of (nonempty : line.cells ≠ []) (frame : List UInt8) :
    (of line n).swaps frame = some ((line.exchanges frame).1, of (line.exchanges frame).2 n) := by
  induction frame generalizing line with
  | nil => rfl
  | cons byte rest ih =>
      have still : (line.exchange byte).2.cells ≠ [] := by
        rwa [← List.length_pos_iff, DelayLine.length_exchange, List.length_pos_iff]
      rw [swaps, swap_of nonempty]
      simp only [Option.bind_eq_bind, Option.bind_some, ih still]
      rfl

/-- A frame goes through the line, also if the line is empty. -/
theorem echo_of (frame : List UInt8) :
    (of line n).echo gain frame =
      some ((line.exchanges (attenuate gain frame)).1,
        of (line.exchanges (attenuate gain frame)).2 n) := by
  by_cases empty : line.cells = []
  · have through := DelayLine.exchanges_of_empty empty (attenuate gain frame)
    rw [through, echo, delayLine_of, if_pos (List.isEmpty_iff.mpr empty)]
  · rw [echo, delayLine_of, if_neg (List.isEmpty_iff.not.mpr empty)]
    exact swaps_of empty _

/-- What is written for the frames, and the line after them. -/
theorem receive_of (frames : List (List UInt8)) :
    ∃ writes, (of line n).receive gain frames =
        some (writes, of (line.exchanges (frames.flatMap (attenuate gain))).2
          (n + (frames.flatMap (attenuate gain)).length)) ∧
      writes.flatten = (line.exchanges (frames.flatMap (attenuate gain))).1 ∧
      writes.map List.length = frames.map List.length := by
  induction frames generalizing line n with
  | nil => exact ⟨[], rfl, rfl, rfl⟩
  | cons frame rest ih =>
      have length := (DelayLine.length_exchanges line (attenuate gain frame)).1
      obtain ⟨writes, received, flatten, lengths⟩ :=
        @ih (line.exchanges (attenuate gain frame)).2 (n + (attenuate gain frame).length)
      refine ⟨(line.exchanges (attenuate gain frame)).1 :: writes, ?_, ?_, ?_⟩
      · rw [receive, echo_of]
        simp only [Option.bind_eq_bind, Option.bind_some, wrote_of, length, received,
          List.flatMap_cons, DelayLine.exchanges_append, List.length_append, Nat.add_assoc]
        rfl
      · rw [List.flatten_cons, flatten, List.flatMap_cons, DelayLine.exchanges_append]
      · rw [List.map_cons, lengths, length, length_attenuate, List.map_cons]

theorem reads_of (nonempty : line.cells ≠ []) (m : Nat) :
    (of line n).reads m = some ((line.reads m).1, of (line.reads m).2 n) := by
  induction m generalizing line with
  | zero => rfl
  | succ m ih =>
      have oldest := List.getElem?_eq_getElem (line.cursor_lt nonempty)
      rw [reads, delayLine_of, delayCursor_of, oldest, DelayLine.reads_succ oldest,
        advance_of nonempty]
      simp only [Option.bind_eq_bind, Option.bind_some, @ih line.skip nonempty]
      rfl

/-- The drain reads the line in pieces, and ends. -/
theorem drain_of {frameBytes turns remaining : Nat} (nonempty : line.cells ≠ [])
    (positive : 0 < frameBytes) (enough : remaining ≤ turns * frameBytes) :
    ∃ pieces, (of line n).drain frameBytes turns remaining =
        some (pieces, of (line.reads remaining).2 (n + remaining)) ∧
      pieces.flatten = (line.reads remaining).1 ∧
      ∀ piece ∈ pieces, piece ≠ [] ∧ piece.length ≤ frameBytes := by
  induction turns generalizing line n remaining with
  | zero =>
      obtain rfl : remaining = 0 := by omega
      exact ⟨[], rfl, rfl, List.forall_mem_nil _⟩
  | succ turns ih =>
      cases remaining with
      | zero => exact ⟨[], rfl, rfl, List.forall_mem_nil _⟩
      | succ remaining =>
          generalize whole : min (remaining + 1) frameBytes = length
          have within : length ≤ remaining + 1 := by omega
          have rest : remaining + 1 - length ≤ turns * frameBytes := by
            rw [Nat.succ_mul] at enough
            omega
          obtain ⟨read, cells⟩ := DelayLine.length_reads nonempty length
          obtain ⟨pieces, drained, flatten, short⟩ :=
            @ih (line.reads length).2 (n + length) _ (cells ▸ nonempty) rest
          have split := DelayLine.reads_add nonempty length (remaining + 1 - length)
          rw [Nat.add_sub_cancel' within] at split
          refine ⟨(line.reads length).1 :: pieces, ?_, ?_, ?_⟩
          · rw [drain, whole, reads_of nonempty]
            simp only [Option.bind_eq_bind, Option.bind_some, wrote_of, drained, split]
            rw [Nat.add_assoc, Nat.add_sub_cancel' within]
            rfl
          · rw [List.flatten_cons, flatten, split]
          · refine List.forall_mem_cons.mpr ⟨⟨?_, ?_⟩, short⟩
            · rw [← List.length_pos_iff, read]
              omega
            · rw [read]
              omega

/-- All that the line holds is written, oldest first. -/
theorem finish_of {frameBytes turns : Nat} (positive : 0 < frameBytes)
    (enough : line.cells.length ≤ turns * frameBytes) :
    ∃ pieces line', (of line n).finish frameBytes turns =
        some (pieces, of line' (n + line.cells.length)) ∧
      pieces.flatten = line.contents ∧
      ∀ piece ∈ pieces, piece ≠ [] ∧ piece.length ≤ frameBytes := by
  rw [finish, delayLine_of]
  by_cases empty : line.cells = []
  · refine ⟨[], line, ?_, ?_, List.forall_mem_nil _⟩
    · rw [empty]
      rfl
    · simp [DelayLine.contents, empty]
  · obtain ⟨pieces, drained, flatten, short⟩ := @drain_of line n _ _ _ empty positive enough
    have whole := (DelayLine.reads_eq_take empty (Nat.le_refl _)).1
    rw [← DelayLine.length_contents, List.take_length, DelayLine.length_contents] at whole
    rw [if_neg (List.isEmpty_iff.not.mpr empty)]
    exact ⟨pieces, _, drained, flatten.trans whole, short⟩

/-- The cursor is an index of the line, unless there is nothing to index. -/
def Valid (self : Player) : Prop :=
  self.delayLine ≠ [] → self.delayCursor < self.delayLine.length

theorem valid_of : (of line n).Valid := line.cursor_lt

end Player

end Line

/-- The frames after gain. -/
def input (gain : Int16 → Int16) (frames : List (List UInt8)) : List UInt8 :=
  frames.flatMap (attenuate gain)

/-- Silence for the delay, then the frames after gain. -/
def delayed (gain : Int16 → Int16) (delayBytes : Nat) (frames : List (List UInt8)) : List UInt8 :=
  List.replicate delayBytes 0 ++ input gain frames

/-- The delayed stream up to the length of the input is written, the rest is in the line. -/
theorem Player.receive_start (gain : Int16 → Int16) (delayBytes : Nat)
    (frames : List (List UInt8)) :
    ∃ echoed line, (start delayBytes).receive gain frames =
        some (echoed, of line (input gain frames).length) ∧
      echoed.flatten = (delayed gain delayBytes frames).take (input gain frames).length ∧
      echoed.map List.length = frames.map List.length ∧
      line.contents = (delayed gain delayBytes frames).drop (input gain frames).length ∧
      line.cells.length = delayBytes := by
  have law := DelayLine.exchanges_law (.blank delayBytes (0 : UInt8)) (input gain frames)
  obtain ⟨outs, cells⟩ :=
    DelayLine.length_exchanges (.blank delayBytes (0 : UInt8)) (input gain frames)
  obtain ⟨echoed, received, flatten, lengths⟩ := @receive_of gain (.blank delayBytes 0) 0 frames
  rw [← start_eq, Nat.zero_add] at received
  rw [DelayLine.contents_blank] at law
  refine ⟨echoed, _, received, ?_, lengths, ?_, cells.trans List.length_replicate⟩
  · rw [flatten, delayed, ← law, ← outs, List.take_left]
    rfl
  · rw [delayed, ← law, ← outs, List.drop_left]
    rfl

/-- The delayed stream is written up to the length of the input while receiving, frame by
frame, and the rest of it by the drain. -/
structure DelayLaw (gain : Int16 → Int16) (delayBytes frameBytes : Nat)
    (frames : List (List UInt8)) (out : Playback) : Prop where
  echoed : out.echoed.flatten = (delayed gain delayBytes frames).take (input gain frames).length
  lengths : out.echoed.map List.length = frames.map List.length
  drained : out.drained.flatten = (delayed gain delayBytes frames).drop (input gain frames).length
  remaining : out.drained.flatten.length = delayBytes
  pieces : ∀ piece ∈ out.drained, piece ≠ [] ∧ piece.length ≤ frameBytes
  bytes : out.player.bytes = (input gain frames).length + delayBytes
  receiving : ∃ player, (Player.start delayBytes).receive gain frames = some (out.echoed, player) ∧
    player.Valid
  valid : out.player.Valid

/-- For every delay and every size of the drained pieces, whatever frames are received:
the playback half ends, in no more turns than pieces fill the delay. -/
theorem playback_delays (gain : Int16 → Int16) {delayBytes frameBytes turns : Nat}
    (positive : 0 < frameBytes) (enough : delayBytes ≤ turns * frameBytes)
    (frames : List (List UInt8)) :
    ∃ out, playback gain delayBytes frameBytes turns frames = some out ∧
      DelayLaw gain delayBytes frameBytes frames out := by
  obtain ⟨echoed, line, received, front, lengths, back, cells⟩ :=
    Player.receive_start gain delayBytes frames
  obtain ⟨drained, line', finished, rest, short⟩ :=
    @Player.finish_of line (input gain frames).length _ _ positive (cells.symm ▸ enough)
  refine ⟨⟨echoed, drained, .of line' ((input gain frames).length + line.cells.length)⟩, ?_, ?_⟩
  · rw [playback, received]
    simp only [Option.bind_eq_bind, Option.bind_some, finished]
    rfl
  · refine ⟨front, lengths, rest.trans back, ?_, short, ?_, ⟨_, received, Player.valid_of⟩,
      Player.valid_of⟩
    · rw [rest, DelayLine.length_contents, cells]
    · rw [← cells]
      rfl

/-- A delay of three octets, drained two at a time: the second frame is longer than the
line and ends inside a sample. -/
theorem playback_delays_three_octets :
    playback (fun v => v) 3 2 2 [[1, 2], [3, 4, 5, 6, 7]] =
        some ⟨[[0, 0], [0, 1, 2, 3, 4]], [[5, 6], [7]], ⟨10, [7, 5, 6], 1⟩⟩ ∧
      ∃ out, playback (fun v => v) 3 2 2 [[1, 2], [3, 4, 5, 6, 7]] = some out ∧
        DelayLaw (fun v => v) 3 2 [[1, 2], [3, 4, 5, 6, 7]] out :=
  ⟨by decide, playback_delays _ (by decide) (by decide) _⟩

end Dorsche.Bin.FlossHfpSmoke

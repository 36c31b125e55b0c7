import Dorsche.Bin.FlossHfpSmoke.Cleanup
import Dorsche.Lib.Shuffle

/-!
What a run of `floss_hfp_smoke` without loopback has done when it succeeds.

The two halves of `exercise_full_duplex` are polled in turns, and the whole of it in
turns with its timeout. A success has played the tone to its end and recorded what the
socket gave, in that order, however the turns went.
-/

namespace Dorsche.Bin.FlossHfpSmoke

open Dorsche.Lib Attempt Proc

variable {uptime : Nat}

/-! ### What is seen of a run -/

/-- An effect with its reply. -/
abbrev Entry (uptime : Nat) := Sigma (Effect.Reply (L := Message) (Request.Reply uptime))

/-- The octets of a write that succeeded. -/
def wrote : Entry uptime → Option (List UInt8)
  | ⟨.ask (.writeAll octets), .ok ()⟩ => some octets
  | _ => none

/-- The octets of a read, none at the end of the stream. -/
def heard : Entry uptime → Option (List UInt8)
  | ⟨.ask (.readUntil _), some (.ok octets)⟩ => some octets
  | _ => none

def printed : Entry uptime → Option Message
  | ⟨.print message, .ok ()⟩ => some message
  | _ => none

def filed : Entry uptime → Option (String × List UInt8)
  | ⟨.ask (.writeFile path octets), .ok ()⟩ => some (path, octets)
  | _ => none

/-- The requests that start and stop the call. -/
def called : Entry uptime → Option Request
  | ⟨.ask (.startScoCall address scoOffload disabledCodecs), _⟩ =>
      some (.startScoCall address scoOffload disabledCodecs)
  | ⟨.ask (.stopScoCall address), _⟩ => some (.stopScoCall address)
  | _ => none

structure Seen where
  called : List Request
  wrote : List (List UInt8)
  heard : List (List UInt8)
  printed : List Message
  filed : List (String × List UInt8)

namespace Seen

def nothing : Seen := ⟨[], [], [], [], []⟩

def append (a b : Seen) : Seen :=
  ⟨a.called ++ b.called, a.wrote ++ b.wrote, a.heard ++ b.heard, a.printed ++ b.printed,
    a.filed ++ b.filed⟩

instance : Append Seen := ⟨append⟩

end Seen

def seen (t : Log uptime) : Seen :=
  ⟨t.filterMap called, t.filterMap wrote, t.filterMap heard, t.filterMap printed, t.filterMap filed⟩

/-- An effect of which nothing is seen. -/
def Quiet : Effect Request Message → Prop
  | .ask (.startScoCall ..) | .ask (.stopScoCall _) | .ask (.writeAll _) | .ask (.readUntil _) =>
      False
  | .ask (.writeFile ..) | .print _ => False
  | _ => True

section Halves

variable {F : Type} [F32 F] {checks : Bool} {turns : Nat} {args : Args F} {t : Log uptime}

/-- The ticks of a duration; the product is a `u64`. -/
def Args.ticks (self : Args F) : Nat := self.seconds.toNat * 1000 % 2 ^ 64 / 10

/-- The frames of the tone, tick by tick. -/
def Args.tone (self : Args F) : List (List UInt8) :=
  (List.range self.ticks).map (F32.tone self.frequencyHz self.codec)

/-- The reads that gave something. -/
def Seen.reads (self : Seen) : List (List UInt8) := self.heard.filter (· ≠ [])

/-- What a successful test has recorded. -/
def Seen.stats (self : Seen) : CaptureStats :=
  self.reads.foldl CaptureStats.account .initial

/-- The lines of a successful test. -/
def Args.report (self : Args F) (s : Seen) : List Message :=
  [.started self.codec (mode self),
    .fullDuplex (self.ticks * (self.codec.sampleRate / 100 * 2)) s.stats] ++
  match self.capturePath with
  | some path => [.capturedPcm path self.codec s.reads.flatten.length]
  | none => []

/-- The file of a successful test. -/
def Args.file (self : Args F) (s : Seen) : List (String × List UInt8) :=
  match self.capturePath with
  | some path => [(path, s.reads.flatten)]
  | none => []

end Halves

end Dorsche.Bin.FlossHfpSmoke

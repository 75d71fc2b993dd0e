import UsbDvbs2.Stream.Provenance
import UsbDvbs2.Stream.Zapping

/-! # What is learned belongs to the adopted channel

The stream thread copies the pid group before it looks at the epoch. A CHANNEL in
between is adopted with the group of its predecessor, and what that iteration
learns is kept for the whole new channel.
-/

namespace Stream

open Bytes Camd Concurrency Engine Program ThreadSystem

/-- Everything learned was read for the service of the adopted channel, out of
sections that arrived since its adoption. -/
def LearnedOfChannel (state : State) : Prop :=
  Derived state.chronicle.adopted state.chronicle.sections state.desk.reader
    state.chronicle.handed

/-- A read is processed with another pid group than the one behind the adopted
epoch. -/
def TornRead (moved : Zap) : Prop :=
  (∃ thread packets, moved.event = .perform thread ⟨.processRead packets, ()⟩) ∧
    moved.before.shared.desk.reader.here ≠ moved.before.shared.chronicle.adopted

/-- A freshly reset thread has learned nothing. -/
theorem derived_adopt (group : Group) (reader : Reader) (epoch : UInt32) :
    Derived group [] (reader.adopt epoch) [] where
  pmt := .inl rfl
  pids := nofun
  teletext := .inl rfl
  streams := nofun
  scrambled := nofun
  biss := nofun
  handed := nofun

theorem LearnedOfChannel.step {moved : Zap} (learned : LearnedOfChannel moved.before.shared)
    (step : zapping.Step moved.before moved.event moved.after) (whole : ¬ TornRead moved) :
    LearnedOfChannel moved.after.shared := by
  rcases zapping_step_cases step with ⟨same, -⟩ | ⟨thread, operation, input, event, same⟩
  · rwa [same]
  · rw [same]
    cases operation with
    | adoptEpoch => exact derived_adopt _ _ _
    | copyGroup => exact { learned with }
    | refreshKeys => exact { learned with }
    | processRead packets =>
        have copied : moved.before.shared.desk.reader.here =
            moved.before.shared.chronicle.adopted := by
          by_contra torn
          exact whole ⟨⟨thread, packets, event⟩, torn⟩
        have begins : StaysWith moved.before.shared.chronicle.adopted moved.before.shared.work :=
          ⟨{ learned with }, learned.worksOn copied⟩
        exact (begins.read packets).derived
    | _ => exact learned

/-- In every interleaving: as long as every read is processed with the pid group
of the CHANNEL whose epoch is adopted, all that the stream thread has learned
and handed to the CAM client comes from tables read for that CHANNEL's service
since the adoption. -/
theorem channels_never_mix {group : Group} {camd : Option Client} {final : zapping.Config}
    {moves : List Zap} (walk : Walk zapping.Step (zapped group camd) moves final)
    (whole : ∀ moved ∈ moves, ¬ TornRead moved) :
    ∀ moved ∈ moves, LearnedOfChannel moved.after.shared := by
  refine walk.wanted_of_allowed (fun config => LearnedOfChannel config.shared)
    (fun moved => ¬ TornRead moved) _ ?_ ?_ whole
  · intro moved step untorn learned
    have kept := learned.step step untorn
    exact ⟨kept, kept⟩
  · exact { derived_adopt group .fresh 0 with }

/-! ### A zap that is adopted with the old group -/

/-- The channel list gives no PMT pids. -/
def firstChannel : Channel := ⟨1, 0x1fff, 0x101, 0x102, 0x1fff, 0, 0⟩

def secondChannel : Channel := ⟨2, 0x1fff, 0x201, 0x202, 0x1fff, 0, 0⟩

/-- A PAT with both services, their PMTs on 0x100 and 0x200. -/
def patPacket : Packet :=
  .stuffed [0x47, 0x40, 0x00, 0x10, 0x00, 0x00, 0xb0, 0x11, 0x00, 0x01, 0xc1, 0x00, 0x00, 0x00,
    0x01, 0xe1, 0x00, 0x00, 0x02, 0xe2, 0x00, 0x00, 0x00, 0x00, 0x00] (by decide)

def patRead : Op → Input
  | .readUsb => { read := some [patPacket] }
  | _ => {}

/-- One iteration that adopts a channel, cut in two behind the copied group. -/
def copying : List zapping.Move := .start .stream () :: performing .stream 2 patRead

def adopting : List zapping.Move := performing .stream 6 patRead ++ [.finish .stream]

def channelCommand (channel : Channel) : List zapping.Move :=
  .start .command (Call.setChannel channel) :: performing .command 3 patRead ++ [.finish .command]

/-- The second channel comes between the copied group and the epoch, then the
thread goes round once more. -/
def zapInside : List zapping.Move :=
  channelCommand firstChannel ++ copying ++ channelCommand secondChannel ++ adopting ++ copying ++
    performing .stream 5 patRead

/-- Both channels come while the thread is between iterations. -/
def zapOutside : List zapping.Move :=
  channelCommand firstChannel ++ copying ++ adopting ++ channelCommand secondChannel ++ copying ++
    adopting

def mixed (schedule : List zapping.Move) : List Zap × zapping.Config :=
  (zapped ⟨0, 0, 0, 0, 0, 0⟩ none).track schedule

/-- Whether the copied group is not the adopted one. -/
def differs (moved : Zap) : Bool :=
  match moved.event with
  | .perform _ ⟨.processRead _, _⟩ =>
      moved.before.shared.desk.reader.here != moved.before.shared.chronicle.adopted
  | _ => false

theorem channels_never_mix_whole :
    (mixed zapOutside).2.shared.desk.reader.learnedPmt = 0x200 ∧
      ∀ moved ∈ (mixed zapOutside).1, LearnedOfChannel moved.after.shared := by
  have none : (mixed zapOutside).1.any differs = false := by decide +kernel
  refine ⟨by decide +kernel, channels_never_mix (ThreadSystem.Config.walk_track _ _) ?_⟩
  intro moved member torn
  rcases torn with ⟨⟨thread, packets, event⟩, torn⟩
  refine List.any_eq_false.mp none moved member ?_
  rw [differs, event]
  exact bne_iff_ne.mpr torn

/-- The second channel runs on the PMT pid of the first. -/
theorem channels_mixed :
    ∃ moved ∈ (mixed zapInside).1,
      moved.after.shared.chronicle.adopted = groupOf secondChannel ∧
      moved.after.shared.desk.reader.here.svc = 2 ∧
      moved.after.shared.desk.reader.learnedPmt = 0x100 ∧
      ¬ LearnedOfChannel moved.after.shared := by
  refine ⟨_, List.getElem_mem (n := 27) (by decide +kernel), ?_, ?_, ?_, fun learned => ?_⟩
  · decide +kernel
  · decide +kernel
  · decide +kernel
  · have source := learned.pmt
    unfold PmtFrom at source
    revert source
    decide +kernel

end Stream

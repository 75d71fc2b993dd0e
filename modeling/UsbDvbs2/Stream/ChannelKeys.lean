import UsbDvbs2.Stream.Zapping

/-! # Whose words a channel is descrambled with

A CHANNEL announces its epoch before it parks the CAM client. An iteration that
adopts the epoch in between fetches the previous channel's words again, and they
stay installed, since a parked client has no keys to replace them with.
-/

namespace Stream

open Camd Concurrency Engine Program ThreadSystem

/-- The thread runs the descrambler in an iteration after the one that adopted
the channel, with keys fetched before the channel's CHANNEL parked the client. -/
def DecryptsStale (moved : Zap) : Prop :=
  (∃ thread packets, moved.event = .perform thread ⟨.decryptRun packets, true⟩) ∧
    moved.before.shared.chronicle.settled = true ∧
    moved.before.shared.chronicle.keysAt < moved.before.shared.chronicle.adoptedAt

/-- Keys are installed between the adoption of a channel and the parking of the
client by its CHANNEL. -/
def InstallsEarly (moved : Zap) : Prop :=
  (∃ thread, moved.event = .perform thread ⟨.refreshKeys, ()⟩) ∧
    moved.before.shared.desk.installs = true ∧
    moved.before.shared.chronicle.parks < moved.before.shared.chronicle.adoptedAt

/-- Installed keys were fetched after the adopted channel's client was parked. -/
def KeysFetchedLate (state : State) : Prop :=
  state.desk.reader.keys.keysInstalled = true →
    state.chronicle.adoptedAt ≤ state.chronicle.keysAt

/-- A refresh that installs nothing leaves keys installed only if they were. -/
theorem Keyring.refresh_quiet {ring : Keyring} {camd : Option Client}
    (quiet : (camd.any fun client => ring.installs client.getKeys) = false)
    (installed : (ring.refresh camd).keysInstalled = true) : ring.keysInstalled = true := by
  cases camd with
  | none =>
      by_cases before : ring.keysInstalled = true
      · exact before
      · rwa [refresh, if_neg before] at installed
  | some client =>
      have calm : ¬ ring.installs client.getKeys = true := ne_true_of_eq_false quiet
      rwa [refresh, if_neg calm] at installed

/-- Any step keeps installed keys late, unless it installs early. -/
theorem KeysFetchedLate.step {moved : Zap} (late : KeysFetchedLate moved.before.shared)
    (step : zapping.Step moved.before moved.event moved.after) (waits : ¬ InstallsEarly moved) :
    KeysFetchedLate moved.after.shared := by
  rcases zapping_step_cases step with ⟨same, -⟩ | ⟨thread, operation, input, event, same⟩
  · rwa [same]
  · rw [same]
    cases operation with
    | adoptEpoch => exact fun installed => nomatch installed
    | refreshKeys =>
        by_cases installs : moved.before.shared.desk.installs = true
        · have parked : moved.before.shared.chronicle.adoptedAt ≤
              moved.before.shared.chronicle.parks := by
            by_contra early
            exact waits ⟨⟨thread, event⟩, installs, Nat.lt_of_not_le early⟩
          intro _
          simpa only [effect, if_pos installs] using parked
        · intro installed
          have before := Keyring.refresh_quiet (Bool.not_eq_true _ ▸ installs) installed
          simpa only [effect, if_neg installs] using late before
    | processRead packets =>
        intro installed
        have before : (packets.foldl Work.packet moved.before.shared.work).reader.keys =
            moved.before.shared.desk.reader.keys := foldl_packet_keys packets _
        exact late (before ▸ installed)
    | _ => exact late

/-- In every interleaving of CHANNEL and CAMD commands, stream iterations and
published words: if no keys are installed between the adoption of a channel and
the parking of the client by its CHANNEL, the descrambler never runs, in an
iteration after the adopting one, with keys fetched before that parking. -/
theorem no_stale_keys {group : Group} {camd : Option Client} {final : zapping.Config}
    {moves : List Zap} (walk : Walk zapping.Step (zapped group camd) moves final)
    (waits : ∀ moved ∈ moves, ¬ InstallsEarly moved) :
    ∀ moved ∈ moves, ¬ DecryptsStale moved := by
  refine walk.wanted_of_allowed (fun config => KeysFetchedLate config.shared)
    (fun moved => ¬ InstallsEarly moved) _ ?_ (fun installed => nomatch installed) waits
  intro moved step wait late
  refine ⟨late.step step wait, fun ⟨⟨thread, packets, runs⟩, _, stale⟩ => ?_⟩
  rcases zapping_step_cases step with ⟨_, other⟩ | ⟨actor, operation, input, event, _⟩
  · exact other thread _ runs
  · have decrypts : moved.before.shared.desk.reader.keys.decrypts = true := by
      have same := event.symm.trans runs
      cases operation with
      | decryptRun read =>
          simp only [Event.perform.injEq, Sigma.mk.injEq, Op.decryptRun.injEq] at same
          obtain ⟨_, rfl, ran⟩ := same
          exact (Bool.and_eq_true _ _ ▸ eq_of_heq ran).1
      | _ => cases same
    have installed := (Bool.and_eq_true _ _ ▸ decrypts).1
    exact Nat.not_le_of_lt stale (late installed)

/-! ### A zap that keeps the old keys -/

def scrambled : Words := ⟨.replicate 8 1, .replicate 8 2⟩

def oldChannel : Channel := ⟨1, 0x100, 0x101, 0x102, 0x1fff, 0, 0⟩

def newChannel : Channel := ⟨2, 0x200, 0x201, 0x202, 0x1fff, 0, 0⟩

/-- Reads bring a video packet. -/
def reading : Op → Input
  | .readUsb => { read := some [.stuffed [0x47, 0x01, 0x01, 0x90] (by decide)] }
  | _ => {}

/-- Once round the loop. -/
def onceRound (adopts : Bool) : List zapping.Move :=
  .start .stream () :: performing .stream (if adopts then 8 else 7) reading ++ [.finish .stream]

/-- The old channel is watched with its words. -/
def watching : List zapping.Move :=
  .start .command (Call.setChannel oldChannel) :: performing .command 3 reading ++
    .finish .command :: .start .worker (scrambled, 80) :: performing .worker 1 reading ++
      .finish .worker :: onceRound true

/-- The next iterations adopt the new channel before its CHANNEL parks the client. -/
def zapBetween : List zapping.Move :=
  .start .command (Call.setChannel newChannel) :: performing .command 2 reading ++
    onceRound true ++ performing .command 1 reading ++ .finish .command :: onceRound false

/-- The next iterations adopt the new channel after its CHANNEL returned. -/
def zapAfter : List zapping.Move :=
  .start .command (Call.setChannel newChannel) :: performing .command 3 reading ++
    .finish .command :: onceRound true ++ onceRound false

/-- A zap with the client of the example channels. -/
def tracked (schedule : List zapping.Move) : List Zap × zapping.Config :=
  (zapped ⟨0, 0, 0, 0, 0, 0⟩ (some start)).track (watching ++ schedule)

/-- The refresh comes before the parking, read off the states alone. -/
def early (moved : Zap) : Bool :=
  moved.before.shared.desk.installs &&
    moved.before.shared.chronicle.parks < moved.before.shared.chronicle.adoptedAt

theorem no_stale_keys_parked :
    (tracked zapAfter).1.length = 42 ∧ ∀ moved ∈ (tracked zapAfter).1, ¬ DecryptsStale moved := by
  have none : (tracked zapAfter).1.any early = false := by decide +kernel
  refine ⟨by decide +kernel, no_stale_keys (ThreadSystem.Config.walk_track _ _) ?_⟩
  intro moved member installs
  refine List.any_eq_false.mp none moved member ?_
  rw [early, installs.2.1, decide_eq_true installs.2.2]
  rfl

/-- The iteration after the adopting one runs the descrambler with the old
channel's words, although the client is parked by then. -/
theorem stale_keys_decrypt : ∃ moved ∈ (tracked zapBetween).1, DecryptsStale moved := by
  refine ⟨_, List.getElem_mem (n := 39) (by decide +kernel), ⟨.stream, _, rfl⟩, ?_, ?_⟩ <;>
    decide +kernel

end Stream

import UsbDvbs2.Concurrency.Walk
import UsbDvbs2.Stream.Descrambler

/-! # Which words a refresh installs

A service change clears the flags of the client's words and leaves the words
themselves, while the refresh reads validity off a word being non-zero. The
first answer for the new service that carries one parity only therefore brings
the old word of the other parity back.
-/

namespace Stream

open Camd Concurrency

/-- What happens to the words, in any order. -/
inductive KeyEvent where
  | setService (serviceId : UInt16) (candidates : List Candidate)
  | publish (words : Words) (latencyMs : UInt32)
  | refresh
  /-- the stream thread adopts a channel -/
  | forget

/-- The words published for one parity: the latest one that is not zero since
the service was set, and whether there ever was one. -/
structure Heard where
  latest : Option Key := none
  ever : Bool := false

def Heard.publish (heard : Heard) (half : Key) : Heard :=
  if half ≠ zeroCw then ⟨some half, true⟩ else heard

/-- The client and the stream thread's keys, with what was published. -/
structure KeyState where
  client : Client
  ring : Keyring
  even : Heard
  odd : Heard

def KeyState.next (state : KeyState) : KeyEvent → KeyState
  | .setService serviceId candidates =>
      { state with
        client := state.client.setService serviceId candidates
        even := { state.even with latest := none }
        odd := { state.odd with latest := none } }
  | .publish words latencyMs =>
      { state with
        client := state.client.publishControlWords words latencyMs
        even := state.even.publish words.even
        odd := state.odd.publish words.odd }
  | .refresh => { state with ring := state.ring.refresh (some state.client) }
  | .forget => { state with ring := state.ring.forget }

/-- A client just started and a stream thread without keys. -/
def KeyState.fresh : KeyState := ⟨start, .create, {}, {}⟩

/-- The event is a refresh that calls `dtv_csa_set_keys`. -/
def Installs (moved : Moved KeyState KeyEvent) : Prop :=
  moved.event = .refresh ∧ moved.before.ring.installs moved.before.client.getKeys = true

/-- Each parity is installed as valid only with the latest word published for it
since the service was set. -/
structure InstallsLatest (moved : Moved KeyState KeyEvent) : Prop where
  even : moved.after.ring.csa.even.valid = true →
    moved.before.even.latest = some moved.after.ring.csa.even.key
  odd : moved.after.ring.csa.odd.valid = true →
    moved.before.odd.latest = some moved.after.ring.csa.odd.key

/-- Every parity that ever had a word has had one since the service was set. -/
structure BothRenewed (state : KeyState) : Prop where
  even : state.even.ever = true → state.even.latest.isSome = true
  odd : state.odd.ever = true → state.odd.latest.isSome = true

/-! ## The client's words and what was published -/

/-- A stored word is the latest of its service, if it had one, and is not zero
exactly if there ever was one. -/
structure Stored (word : Key) (heard : Heard) : Prop where
  latest : ∀ key, heard.latest = some key → word = key
  ever : heard.ever = true ↔ word ≠ zeroCw

variable {word half : Key} {heard : Heard}

theorem Stored.publish (stored : Stored word heard) :
    Stored (if half ≠ zeroCw then half else word) (heard.publish half) := by
  by_cases zero : half = zeroCw
  · simpa only [Heard.publish, zero, ne_eq, not_true_eq_false, if_false] using stored
  · simp only [Heard.publish, ne_eq, zero, not_false_eq_true, if_true]
    exact ⟨fun key same => Option.some.inj same, iff_of_true rfl zero⟩

theorem Stored.setService (stored : Stored word heard) :
    Stored word { heard with latest := none } :=
  ⟨nofun, stored.ever⟩

/-- A word that is not zero is the latest of its service exactly if its parity
was renewed. -/
theorem Stored.latest_iff (stored : Stored word heard) :
    (word ≠ zeroCw → heard.latest = some word) ↔
      (heard.ever = true → heard.latest.isSome = true) := by
  rw [stored.ever]
  refine imp_congr_right fun _ => ⟨fun same => by rw [same]; rfl, fun renewed => ?_⟩
  obtain ⟨key, same⟩ := Option.isSome_iff_exists.mp renewed
  rw [same, stored.latest key same]

/-- The two words of the client are those that were published. -/
structure Consistent (state : KeyState) : Prop where
  even : Stored state.client.even state.even
  odd : Stored state.client.odd state.odd

theorem Consistent.next {state : KeyState} (consistent : Consistent state) (event : KeyEvent) :
    Consistent (state.next event) := by
  cases event with
  | setService serviceId candidates =>
      exact ⟨consistent.even.setService, consistent.odd.setService⟩
  | publish words latencyMs => exact ⟨consistent.even.publish, consistent.odd.publish⟩
  | refresh => exact ⟨consistent.even, consistent.odd⟩
  | forget => exact ⟨consistent.even, consistent.odd⟩

theorem Batch.set_latest_iff (batch : Batch) (stored : Stored word heard) :
    ((batch.set word (word != zeroCw)).valid = true →
        heard.latest = some (batch.set word (word != zeroCw)).key) ↔
      (heard.ever = true → heard.latest.isSome = true) := by
  rw [← stored.latest_iff, Batch.set_valid, bne_iff_ne]
  refine forall_congr' fun nonzero => ?_
  rw [Batch.set_key]
  rw [Batch.set_valid, bne_iff_ne]
  exact nonzero

/-- An installing refresh installs the latest words exactly if every parity was
renewed. -/
theorem installsLatest_iff {moved : Moved KeyState KeyEvent}
    (step : stepOf KeyState.next moved.before moved.event moved.after)
    (consistent : Consistent moved.before) (installs : Installs moved) :
    InstallsLatest moved ↔ BothRenewed moved.before := by
  obtain ⟨before, event, after⟩ := moved
  obtain ⟨rfl, installs⟩ := installs
  have refreshed : after.ring = before.ring.install before.client.getKeys := by
    rw [show after = before.next .refresh from step]
    exact if_pos installs
  have even := Batch.set_latest_iff before.ring.csa.even consistent.even
  have odd := Batch.set_latest_iff before.ring.csa.odd consistent.odd
  constructor
  · intro latest
    rcases latest with ⟨latestEven, latestOdd⟩
    rw [refreshed] at latestEven latestOdd
    exact ⟨even.mp latestEven, odd.mp latestOdd⟩
  · intro renewed
    rcases renewed with ⟨renewedEven, renewedOdd⟩
    constructor
    · rw [refreshed]
      exact even.mpr renewedEven
    · rw [refreshed]
      exact odd.mpr renewedOdd

/-- In every run, all refreshes install nothing but the latest words of the
current service exactly when at each of them every parity that ever had a word
has had one since the service was set. -/
theorem refresh_installs_latest {final : KeyState} {moves : List (Moved KeyState KeyEvent)}
    (walk : Walk (stepOf KeyState.next) .fresh moves final) :
    (∀ moved ∈ moves, Installs moved → InstallsLatest moved) ↔
      ∀ moved ∈ moves, Installs moved → BothRenewed moved.before := by
  refine walk.good_iff Consistent _ _ ?_ ?_ ?_
  · exact fun moved step consistent =>
      imp_congr_right fun installs => installsLatest_iff step consistent installs
  · intro moved step consistent _
    rw [show moved.after = moved.before.next moved.event from step]
    exact consistent.next moved.event
  · have fresh : Stored zeroCw {} := ⟨nofun, by decide⟩
    exact ⟨fresh, fresh⟩

/-! ### Runs with and without an answer of one parity -/

def firstWords : Words := ⟨.replicate 8 1, .replicate 8 2⟩

def evenOnly : Words := ⟨.replicate 8 3, zeroCw⟩

/-- A service with both words, then another whose first answer brings `words`. -/
def changeService (words : Words) : List KeyEvent :=
  [.setService 1 [⟨0x500, 0x100, 0⟩], .publish firstWords 80, .refresh, .setService 2 [],
    .forget, .setService 2 [⟨0x500, 0x200, 0⟩], .publish words 80, .refresh]

theorem refresh_installs_latest_renewed :
    (moves KeyState.next .fresh (changeService firstWords)).length = 8 ∧
    ((∀ moved ∈ moves KeyState.next .fresh (changeService firstWords),
        Installs moved → InstallsLatest moved) ↔
      ∀ moved ∈ moves KeyState.next .fresh (changeService firstWords),
        Installs moved → BothRenewed moved.before) :=
  ⟨rfl, refresh_installs_latest (walk_moves KeyState.next .fresh (changeService firstWords))⟩

/-- The new service's answer has no odd word: the old service's is installed. -/
theorem stale_parity_installed :
    ∃ moved ∈ moves KeyState.next .fresh (changeService evenOnly),
      Installs moved ∧ ¬ InstallsLatest moved ∧
        moved.after.ring.csa.odd = ⟨firstWords.odd, true⟩ := by
  have installs : (((moves KeyState.next .fresh (changeService evenOnly)).getLast?).any fun moved =>
      moved.before.ring.installs moved.before.client.getKeys) = true := by decide +kernel
  refine ⟨_, List.getElem_mem (n := 7) (by decide), ⟨rfl, installs⟩, ?_, ?_⟩
  · intro latest
    have renewed := latest.odd (by decide +kernel)
    revert renewed
    decide +kernel
  · decide +kernel

end Stream

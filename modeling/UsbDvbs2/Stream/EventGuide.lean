import Mathlib.Data.List.Infix
import Mathlib.Data.List.Induction
import UsbDvbs2.Store.Probing
import UsbDvbs2.Stream.EventTable

/-! # The guide and its revisions

Sections of the event table repeat every few seconds, so an event is handed to the
host once for each version of a table that it comes with. The versions of two tables
of a service have nothing to do with each other, and neither do a version and the
same number 32 revisions later.
-/

namespace Stream

open Bytes Probing

/-! ## The events sent so far -/

def epgSeenSlots : Nat := 8192

/-- `g_epg_seen` and `g_epg_seen_count`; an empty slot is zero. -/
structure EpgSeen where
  slots : Fin epgSeenSlots → UInt64
  count : Nat

instance : NeZero epgSeenSlots := ⟨by decide⟩

def EpgSeen.cleared : EpgSeen := { slots := fun _ => 0, count := 0 }

/-- The key of an event and a version. -/
def seenKey (serviceId eventId : UInt16) (version : Nat) : UInt64 :=
  serviceId.toUInt64 <<< 24 ||| eventId.toUInt64 <<< 8 ||| UInt64.ofNat (version % 32) |||
    (1 : UInt64) <<< 40

def seenSlot (key : UInt64) : Fin epgSeenSlots :=
  Fin.ofNat epgSeenSlots ((key * 1099511628211) >>> 40).toNat

/-- The slots that are looked through: at three quarters they start anew. -/
def EpgSeen.started (seen : EpgSeen) : EpgSeen :=
  if epgSeenSlots * 3 ≤ seen.count * 4 then .cleared else seen

/-- `epg_already_sent`. -/
def EpgSeen.alreadySent (seen : EpgSeen) (serviceId eventId : UInt16) (version : Nat) :
    Bool × EpgSeen :=
  let key := seenKey serviceId eventId version
  match probe 0 seen.started.slots key epgSeenSlots (seenSlot key) with
  | .found => (true, seen.started)
  | .free slot =>
      (false, { slots := Function.update seen.started.slots slot key
                count := seen.started.count + 1 })
  | .full => (false, seen.started)

/-- An event is remembered under a version. -/
def EpgSeen.Remembered (seen : EpgSeen) (serviceId eventId : UInt16) (version : Nat) : Prop :=
  ∃ slot, seen.started.slots slot = seenKey serviceId eventId version

/-- Every key can be found again. -/
def EpgSeen.Sound (seen : EpgSeen) : Prop := Chained 0 seenSlot seen.slots

theorem seenKey_ne (serviceId eventId : UInt16) (version : Nat) :
    seenKey serviceId eventId version ≠ 0 := by
  intro zero
  exact absurd (UInt64.or_eq_zero_iff.1 zero).2 (by decide)

theorem EpgSeen.Sound.cleared : EpgSeen.cleared.Sound := Chained.cleared

theorem EpgSeen.Sound.started {seen : EpgSeen} (sound : seen.Sound) : seen.started.Sound := by
  unfold EpgSeen.started
  split
  · exact .cleared
  · exact sound

/-- An event counts as sent exactly when it is remembered. -/
theorem EpgSeen.Sound.alreadySent {seen : EpgSeen} (sound : seen.Sound)
    (serviceId eventId : UInt16) (version : Nat) :
    ((seen.alreadySent serviceId eventId version).1 = true ↔
      seen.Remembered serviceId eventId version) ∧
      (seen.alreadySent serviceId eventId version).2.Sound := by
  have found := Chained.found_iff sound.started (seenKey_ne serviceId eventId version)
  rw [EpgSeen.Remembered, ← found, EpgSeen.alreadySent]
  cases ends : probe 0 seen.started.slots (seenKey serviceId eventId version) epgSeenSlots
      (seenSlot (seenKey serviceId eventId version)) with
  | found => exact ⟨iff_of_true rfl rfl, sound.started⟩
  | free slot => exact ⟨iff_of_false nofun nofun, Chained.store sound.started ends⟩
  | full => exact ⟨iff_of_false nofun nofun, sound.started⟩

/-! ## What is forwarded -/

/-- The memory of the engine, and the events that the host was handed. -/
structure Guide where
  seen : EpgSeen
  forwarded : List EpgEvent

def Guide.boot : Guide := { seen := .cleared, forwarded := [] }

/-- An event of a section of a version. -/
def Guide.offer (version : Nat) (guide : Guide) (event : EpgEvent) : Guide :=
  let (sent, seen) := guide.seen.alreadySent event.serviceId event.eventId version
  { seen, forwarded := if sent then guide.forwarded else guide.forwarded ++ [event] }

def maxSectionEvents : Nat := 64

/-- `forward_epg_section`. -/
def Guide.forwardEpgSection (guide : Guide) (sec : List UInt8) : Guide :=
  match epgSectionVersion sec with
  | none => guide
  | some version => (epgParseSection sec maxSectionEvents).foldl (Guide.offer version) guide

/-- What happens to the guide: a section comes in, or the viewer changes channel. -/
inductive GuideInput where
  | eit (sec : List UInt8)
  | setChannel

def Guide.take (guide : Guide) : GuideInput → Guide
  | .eit sec => guide.forwardEpgSection sec
  | .setChannel => { guide with seen := .cleared }

def guideRun (inputs : List GuideInput) : Guide := inputs.foldl Guide.take .boot

/-! ## What came -/

/-- A service and an event. -/
def EpgEvent.key (event : EpgEvent) : UInt16 × UInt16 := (event.serviceId, event.eventId)

/-- The events of a section, each with a start and a title or without. -/
def GuideInput.entries : GuideInput → List ((UInt16 × UInt16) × Option EpgEvent)
  | .eit sec =>
      if isEventSection sec then
        (eventEntries sec).map fun pos => ((be16 sec 3, be16 sec pos), readEvent sec pos)
      else []
  | .setChannel => []

/-- Those with a start and a title. -/
def GuideInput.events (input : GuideInput) : List EpgEvent := input.entries.filterMap Prod.snd

/-- The last of some events that is the one of a service. -/
def lastOf (key : UInt16 × UInt16) (events : List EpgEvent) : Option EpgEvent :=
  events.reverse.find? fun event => event.key = key

/-- What the latest section says of an event. -/
def latestEntry (key : UInt16 × UInt16) (inputs : List GuideInput) :
    Option ((UInt16 × UInt16) × Option EpgEvent) :=
  (inputs.flatMap GuideInput.entries).reverse.find? fun entry => entry.1 = key

/-- Table, service, transport stream and network. -/
def subTable (sec : List UInt8) : Nat × UInt16 × UInt16 × UInt16 :=
  (octet sec 0, be16 sec 3, be16 sec 8, be16 sec 10)

/-- Every sub-table changes its version with its content: two sections of it with one
number and one version, and no other version in between, are the same. -/
def Versioned : List (List UInt8) → Prop
  | [] => True
  | sec :: rest =>
      (∀ other ∈ rest.takeWhile fun other =>
          subTable other = subTable sec → epgSectionVersion other = epgSectionVersion sec,
        subTable other = subTable sec → octet other 6 = octet sec 6 → other = sec) ∧
      Versioned rest

/-- The host was last handed every event as the latest section has it. -/
def UpToDate (inputs : List GuideInput) : Prop :=
  ∀ key event, latestEntry key inputs = some (key, some event) →
    lastOf key (guideRun inputs).forwarded = some event

/-! ## The same content, or a version that is not remembered -/

/-- Of the events of a section, with room for some of them: one that comes without room,
or under a version that it is remembered under, is as it last came. -/
def Repeats (version : Nat) : Nat → Guide → List EpgEvent → List EpgEvent → Prop
  | _, _, _, [] => True
  | 0, guide, came, event :: events =>
      lastOf event.key came = some event ∧ Repeats version 0 guide (came ++ [event]) events
  | room + 1, guide, came, event :: events =>
      (guide.seen.Remembered event.serviceId event.eventId version →
        lastOf event.key came = some event) ∧
      Repeats version room (guide.offer version event) (came ++ [event]) events

/-- So it is in a section. -/
def GuideInput.Repeats (guide : Guide) (came : List EpgEvent) : GuideInput → Prop
  | .eit sec => ∀ version ∈ epgSectionVersion sec,
      Stream.Repeats version maxSectionEvents guide came (GuideInput.events (.eit sec))
  | .setChannel => True

/-- So it is in every section of a run. -/
def RepeatsThroughout : Guide → List EpgEvent → List GuideInput → Prop
  | _, _, [] => True
  | guide, came, input :: inputs =>
      input.Repeats guide came ∧
        RepeatsThroughout (guide.take input) (came ++ input.events) inputs

theorem lastOf_append (key : UInt16 × UInt16) (events : List EpgEvent) (event : EpgEvent) :
    lastOf key (events ++ [event]) = if event.key = key then some event else lastOf key events := by
  rw [lastOf, List.reverse_append, List.reverse_singleton, List.singleton_append]
  by_cases same : event.key = key
  · simp only [List.find?_cons, same, decide_true, if_true]
  · simp only [List.find?_cons, same, decide_false, if_false, lastOf]

/-- A repetition of the last changes nothing. -/
theorem lastOf_repeat {events : List EpgEvent} {event : EpgEvent}
    (last : lastOf event.key events = some event) (key : UInt16 × UInt16) :
    lastOf key (events ++ [event]) = lastOf key events := by
  rw [lastOf_append]
  split
  · rename_i same
    rw [← same, last]
  · rfl

theorem epgParseSection_eq (sec : List UInt8) (maxEvents : Nat) :
    epgParseSection sec maxEvents = (GuideInput.events (.eit sec)).take maxEvents := by
  rw [epgParseSection, GuideInput.events, GuideInput.entries]
  split
  · rw [List.filterMap_map]
    rfl
  · rw [List.filterMap_nil, List.take_nil]

theorem events_unversioned {sec : List UInt8} (unversioned : epgSectionVersion sec = none) :
    GuideInput.events (.eit sec) = [] := by
  have short : sec.length < 6 := by
    unfold epgSectionVersion at unversioned
    split at unversioned
    · assumption
    · exact nomatch unversioned
  have outside : ¬ isEventSection sec = true := by
    rw [isEventSection, Bool.and_eq_true, decide_eq_true_eq]
    exact fun inside => absurd inside.1 (by omega)
  rw [GuideInput.events, GuideInput.entries, if_neg outside, List.filterMap_nil]

theorem entries_keyed {input : GuideInput} {entry : (UInt16 × UInt16) × Option EpgEvent}
    (listed : entry ∈ input.entries) {event : EpgEvent} (titled : entry.2 = some event) :
    event.key = entry.1 := by
  cases input with
  | setChannel => exact nomatch listed
  | eit sec =>
      rw [GuideInput.entries] at listed
      split at listed
      · obtain ⟨pos, -, rfl⟩ := List.mem_map.1 listed
        exact Prod.ext (readEvent_key titled).1 (readEvent_key titled).2
      · exact nomatch listed

theorem lastOf_filterMap {key : UInt16 × UInt16} {event : EpgEvent}
    {entries : List ((UInt16 × UInt16) × Option EpgEvent)}
    (keyed : ∀ entry ∈ entries, ∀ event, entry.2 = some event → event.key = entry.1)
    (latest : (entries.reverse.find? fun entry => entry.1 = key) = some (key, some event)) :
    lastOf key (entries.filterMap Prod.snd) = some event := by
  induction entries using List.reverseRecOn with
  | nil => exact nomatch latest
  | append_singleton entries entry ih =>
      have before := fun other listed => keyed other (List.mem_append_left _ listed)
      have own := keyed entry (List.mem_append_right _ (List.mem_singleton_self _))
      rw [List.reverse_append, List.reverse_singleton, List.singleton_append,
        List.find?_cons] at latest
      obtain ⟨name, said⟩ := entry
      have titled (other : EpgEvent) : [(name, some other)].filterMap Prod.snd = [other] := rfl
      rw [List.filterMap_append]
      by_cases same : name = key
      · simp only [same, decide_true] at latest
        obtain ⟨-, rfl⟩ := Prod.mk.inj (Option.some.inj latest)
        rw [titled, lastOf_append, if_pos ((own event rfl).trans same)]
      · simp only [same, decide_false] at latest
        cases said with
        | none => exact (congrArg _ (List.append_nil _)).trans (ih before latest)
        | some other =>
            rw [titled, lastOf_append, if_neg fun named => same ((own other rfl).symm.trans named)]
            exact ih before latest

/-- What the latest section says of an event is what last came, where it has a start and
a title. -/
theorem lastOf_latest {key : UInt16 × UInt16} {event : EpgEvent} {inputs : List GuideInput}
    (latest : latestEntry key inputs = some (key, some event)) :
    lastOf key (inputs.flatMap GuideInput.events) = some event := by
  have titled : inputs.flatMap GuideInput.events =
      (inputs.flatMap GuideInput.entries).filterMap Prod.snd :=
    (List.filterMap_flatMap ..).symm
  rw [titled]
  refine lastOf_filterMap (fun entry listed => ?_) latest
  obtain ⟨input, -, listed⟩ := List.mem_flatMap.1 listed
  exact fun event => entries_keyed listed

/-- The host has, of every event, what came last. -/
structure Guide.Told (guide : Guide) (came : List EpgEvent) : Prop where
  sound : guide.seen.Sound
  last : ∀ key, lastOf key guide.forwarded = lastOf key came

namespace Guide.Told

variable {guide : Guide} {came : List EpgEvent}

theorem again {event : EpgEvent} (told : guide.Told came)
    (same : lastOf event.key came = some event) : guide.Told (came ++ [event]) where
  sound := told.sound
  last key := (told.last key).trans (lastOf_repeat same key).symm

theorem offer {version : Nat} {event : EpgEvent} (told : guide.Told came)
    (same : guide.seen.Remembered event.serviceId event.eventId version →
      lastOf event.key came = some event) : (guide.offer version event).Told (came ++ [event]) := by
  obtain ⟨sent, sound⟩ := told.sound.alreadySent event.serviceId event.eventId version
  refine ⟨sound, fun key => ?_⟩
  simp only [Guide.offer]
  split
  · rename_i already
    exact (told.last key).trans (lastOf_repeat (same (sent.1 already)) key).symm
  · rw [lastOf_append, lastOf_append, told.last]

theorem events {version room : Nat} {events : List EpgEvent} (told : guide.Told came)
    (repeats : Stream.Repeats version room guide came events) :
    ((events.take room).foldl (Guide.offer version) guide).Told (came ++ events) := by
  induction events generalizing room guide came with
  | nil =>
      rw [List.take_nil, List.append_nil]
      exact told
  | cons event events ih =>
      rw [List.append_cons]
      cases room with
      | zero => exact ih (told.again repeats.1) repeats.2
      | succ room => exact ih (told.offer repeats.1) repeats.2

theorem take {input : GuideInput} (told : guide.Told came) (repeats : input.Repeats guide came) :
    (guide.take input).Told (came ++ input.events) := by
  cases input with
  | setChannel =>
      rw [GuideInput.events, GuideInput.entries, List.filterMap_nil, List.append_nil]
      exact ⟨.cleared, told.last⟩
  | eit sec =>
      rw [Guide.take, Guide.forwardEpgSection]
      cases known : epgSectionVersion sec with
      | none =>
          rw [events_unversioned known, List.append_nil]
          exact told
      | some version =>
          rw [epgParseSection_eq]
          exact told.events (repeats version known)

theorem run {inputs past : List GuideInput} (told : guide.Told came)
    (repeats : RepeatsThroughout guide came inputs) (reached : past <+: inputs) :
    (past.foldl Guide.take guide).Told (came ++ past.flatMap GuideInput.events) := by
  induction past generalizing guide came inputs with
  | nil =>
      rw [List.flatMap_nil, List.append_nil]
      exact told
  | cons input past ih =>
      obtain ⟨inputs, rfl, earlier⟩ := List.cons_prefix_iff.1 reached
      rw [List.flatMap_cons, ← List.append_assoc]
      exact ih (told.take repeats.1) repeats.2 earlier

end Guide.Told

/-- **Every revision is told.** Where no event comes with a version that it is remembered
under, or behind 64 others in its section, unless it is as it last came, the host was
last handed every event as the latest section has it. -/
theorem epg_revisions_told {inputs : List GuideInput}
    (repeats : RepeatsThroughout .boot [] inputs) : ∀ past, past <+: inputs → UpToDate past := by
  intro past reached key event latest
  have told := Guide.Told.run ⟨EpgSeen.Sound.cleared, fun _ => rfl⟩ repeats reached
  exact (told.last key).trans (lastOf_latest latest)

/-! ## Two tables of one service -/

/-- The schedule. -/
def newsSchedule : List UInt8 :=
  [0x50, 0xf0, 0x26, 0x00, 0x01, 0xc7, 0x00, 0x00, 0x00, 0x01, 0x00, 0x2a, 0x00, 0x50, 0x00,
   0x07, 0xc0, 0x79, 0x12, 0x45, 0x00, 0x01, 0x45, 0x00, 0x20, 0x0b, 0x4d, 0x09, 0x74, 0x75,
   0x72, 0x04, 0x4e, 0x65, 0x77, 0x73, 0x00, 0xb5, 0xaa, 0xce, 0x62]

/-- Present and following, in the same version. -/
def filmFollowing : List UInt8 :=
  [0x4e, 0xf0, 0x26, 0x00, 0x01, 0xc7, 0x00, 0x00, 0x00, 0x01, 0x00, 0x2a, 0x00, 0x4e, 0x00,
   0x07, 0xc0, 0x79, 0x12, 0x45, 0x00, 0x01, 0x45, 0x00, 0x20, 0x0b, 0x4d, 0x09, 0x74, 0x75,
   0x72, 0x04, 0x46, 0x69, 0x6c, 0x6d, 0x00, 0x1d, 0x6b, 0x53, 0x77]

/-- The event of the schedule and of present and following. -/
def announced (title : List UInt8) : EpgEvent where
  serviceId := 1
  eventId := 7
  startUtc := 750516300
  durationSeconds := 6300
  runningStatus := 1
  scrambled := 0
  title
  text := []

def news : EpgEvent := announced [0x4e, 0x65, 0x77, 0x73]

def film : EpgEvent := announced [0x46, 0x69, 0x6c, 0x6d]

theorem repeats_one {sec : List UInt8} {event : EpgEvent} {version : Nat} {guide : Guide}
    {came : List EpgEvent} (versioned : epgSectionVersion sec = some version)
    (listed : GuideInput.events (.eit sec) = [event])
    (same : guide.seen.Remembered event.serviceId event.eventId version →
      lastOf event.key came = some event) :
    GuideInput.Repeats guide came (.eit sec) := by
  intro other known
  obtain rfl : version = other := Option.some.inj (versioned.symm.trans known)
  rw [listed]
  exact ⟨same, trivial⟩

/-- A section with one event that comes twice. -/
theorem repeats_twice {sec : List UInt8} {event : EpgEvent} {version : Nat}
    (versioned : epgSectionVersion sec = some version)
    (listed : GuideInput.events (.eit sec) = [event])
    (unsent : (EpgSeen.cleared.alreadySent event.serviceId event.eventId version).1 = false) :
    RepeatsThroughout .boot [] [.eit sec, .eit sec] := by
  refine ⟨repeats_one versioned listed fun remembered => ?_,
    repeats_one versioned listed fun _ => ?_, trivial⟩
  · have sent := (EpgSeen.Sound.cleared.alreadySent _ _ version).1.2 remembered
    exact absurd sent (Bool.eq_false_iff.1 unsent)
  · rw [listed, List.nil_append, lastOf, List.reverse_singleton]
    exact List.find?_cons_of_pos (decide_eq_true rfl)

/-- A schedule that comes twice. -/
theorem epg_revisions_told_schedule :
    GuideInput.events (.eit newsSchedule) = [news] ∧
      ∀ past, past <+: [.eit newsSchedule, .eit newsSchedule] → UpToDate past := by
  have versioned : epgSectionVersion newsSchedule = some 3 := by decide
  have listed : GuideInput.events (.eit newsSchedule) = [news] := by decide +kernel
  have unsent : (EpgSeen.cleared.alreadySent news.serviceId news.eventId 3).1 = false := by
    decide +kernel
  exact ⟨listed, epg_revisions_told (repeats_twice versioned listed unsent)⟩

/-- The schedule lists an event; the programme is replaced, and the table of present and
following, in the same version of its own, says so. The host keeps the old one. -/
theorem epg_revision_lost :
    Versioned [newsSchedule, filmFollowing] ∧
      ¬ UpToDate [.eit newsSchedule, .eit filmFollowing] := by
  refine ⟨⟨?_, ?_, trivial⟩, fun current => ?_⟩
  · decide
  · decide
  · have latest : latestEntry (1, 7) [.eit newsSchedule, .eit filmFollowing] =
        some ((1, 7), some film) := by decide +kernel
    have told : lastOf (1, 7) (guideRun [.eit newsSchedule, .eit filmFollowing]).forwarded =
        some news := by decide +kernel
    exact absurd (told.symm.trans (current (1, 7) film latest)) (by decide)

end Stream

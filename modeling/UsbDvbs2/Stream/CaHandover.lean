import UsbDvbs2.Concurrency.Walk
import UsbDvbs2.Stream.Reader

/-! # Handing the CA systems to the CAM client

The first section on the PMT pid after a CHANNEL is handed to whatever client is
running then, and no later one is. A client started afterwards is told nothing,
and a client keeps the first list when the table changes.
-/

namespace Stream

open Bytes Camd Concurrency Engine

/-- What decides which CA systems the client knows. -/
inductive ServiceEvent where
  /-- a CHANNEL command, adopted by the stream thread -/
  | channel (channel : Channel)
  /-- a CAMD command: start or replace the client, or stop it -/
  | camd (enabled : Bool)
  /-- a section on the PMT pid of the channel -/
  | pmtSection (sec : List UInt8)

/-- The watched channel, with what happened on its PMT pid: the first section
since the CHANNEL, and whether a client was running then and still is. -/
structure Watch where
  group : Group
  reader : Reader
  camd : Option Client
  first : Option (List UInt8)
  steady : Bool

/-- The section as the current iteration works on it. -/
def Watch.work (watch : Watch) : Work :=
  ⟨{ watch.reader with here := watch.group }.resolve, watch.camd, [], []⟩

/-- Without a service nothing is filtered and no table is read. -/
def Watch.next (watch : Watch) : ServiceEvent → Watch
  | .channel channel =>
      { group := groupOf channel
        reader := { watch.reader with here := groupOf channel }.adopt (watch.reader.epoch + 1)
        camd := watch.camd.map (setService channel.service [])
        first := none
        steady := false }
  | .camd enabled =>
      { watch with
        camd := if enabled then some start else none
        steady := false }
  | .pmtSection sec =>
      if watch.group.svc = 0 then watch
      else
        { watch with
          reader := (watch.work.pmt sec).reader
          camd := (watch.work.pmt sec).camd
          first := some (watch.first.getD sec)
          steady := watch.steady || (watch.first.isNone && watch.camd.isSome) }

/-- Before the first CHANNEL and without a client. -/
def Watch.fresh : Watch := ⟨⟨0, 0, 0, 0, 0, 0⟩, .fresh, none, none, false⟩

/-- The candidate list that belongs to a section of the watched service. -/
def Watch.expected (watch : Watch) (sec : List UInt8) : List Candidate :=
  candidatesOf sec watch.group.svc watch.group.hintCaid

/-- A PMT section of the watched service is processed with a client running. -/
def Processes (moved : Moved Watch ServiceEvent) (sec : List UInt8) : Prop :=
  moved.event = .pmtSection sec ∧ moved.before.group.svc ≠ 0 ∧
    isPmtOf sec moved.before.group.svc = true ∧ moved.before.camd.isSome = true

/-- The running client's candidates are those of the section. -/
def KnowsList (watch : Watch) (sec : List UInt8) : Prop :=
  ∃ client, watch.camd = some client ∧ client.candidates = watch.expected sec

/-- They are, and the client has them for the watched service. -/
def KnowsService (watch : Watch) (sec : List UInt8) : Prop :=
  ∃ client, watch.camd = some client ∧ client.candidates = watch.expected sec ∧
    client.serviceId = watch.group.svc

/-- The section is the first since the CHANNEL, or the client has been running
since the first one and that one gave the same list. -/
def ToldOf (watch : Watch) (sec : List UInt8) : Prop :=
  watch.first = none ∨ watch.steady = true ∧
    ∃ earlier, watch.first = some earlier ∧ watch.expected earlier = watch.expected sec

/-- The client was told nothing, and there is nothing to tell. -/
def NothingToTell (watch : Watch) (sec : List UInt8) : Prop :=
  watch.steady = false ∧ watch.expected sec = []

/-! ## What one section does -/

/-- A list of candidates never exceeds what the client takes. -/
theorem length_caDescriptorCandidate {sec : List UInt8} {candidates : List Candidate} {pos : Nat}
    (short : candidates.length ≤ maxCandidates) :
    (caDescriptorCandidate sec candidates pos).length ≤ maxCandidates := by
  simp only [caDescriptorCandidate]
  split
  · exact short
  · rename_i room
    split
    · exact short
    split
    · exact short
    split
    · exact short
    · rw [List.length_append, List.length_singleton]
      omega

theorem length_caLoop {sec : List UInt8} {start limit : Nat} {candidates : List Candidate}
    (short : candidates.length ≤ maxCandidates) :
    (caLoop sec start limit candidates).length ≤ maxCandidates := by
  unfold caLoop
  generalize (descriptors sec start limit).filter _ = positions
  induction positions generalizing candidates with
  | nil => exact short
  | cons pos rest ih => exact ih (length_caDescriptorCandidate short)

theorem length_pmtCollectCa (sec : List UInt8) (svc : UInt16) :
    (pmtCollectCa sec svc).length ≤ maxCandidates := by
  unfold pmtCollectCa
  split
  · have short : (caLoop sec 12 (programInfoEnd sec) []).length ≤ maxCandidates :=
      length_caLoop (Nat.zero_le _)
    revert short
    generalize caLoop sec 12 (programInfoEnd sec) [] = candidates
    generalize (streamEntries sec).takeWhile _ = positions
    intro short
    induction positions generalizing candidates with
    | nil => exact short
    | cons pos rest ih => exact ih _ (length_caLoop short)
  · exact Nat.zero_le _

theorem length_candidatesOf (sec : List UInt8) (svc hintCaid : UInt16) :
    (candidatesOf sec svc hintCaid).length ≤ maxCandidates := by
  unfold candidatesOf
  dsimp only
  split
  · exact Nat.le_of_ble_eq_true rfl
  · exact length_pmtCollectCa sec svc

/-- A service that is set with a short list is known with just that list. -/
theorem setService_known (client : Client) (svc : UInt16) {candidates : List Candidate}
    (short : candidates.length ≤ maxCandidates) :
    (setService svc candidates client).candidates = candidates ∧
      (setService svc candidates client).serviceId = svc := by
  have taken : candidates.take maxCandidates = candidates := List.take_of_length_le short
  unfold setService Client.applyCandidate
  dsimp only
  split <;> exact ⟨taken, rfl⟩

theorem readPids_here (reader : Reader) (sec : List UInt8) :
    (reader.readPids sec).here.svc = reader.here.svc ∧
      (reader.readPids sec).here.hintCaid = reader.here.hintCaid ∧
      (reader.readPids sec).reportedCa = reader.reportedCa := by
  unfold Reader.readPids
  split
  · dsimp only
    split <;> exact ⟨rfl, rfl, rfl⟩
  · exact ⟨rfl, rfl, rfl⟩

/-- A section is handed over exactly if none was reported yet. -/
theorem pmt_handsOver (work : Work) (sec : List UInt8) :
    (work.pmt sec).camd =
        (if work.reader.reportedCa = none then
          work.camd.map (setService work.reader.here.svc
            (candidatesOf sec work.reader.here.svc work.reader.here.hintCaid))
        else work.camd) ∧
      (work.pmt sec).reader.reportedCa ≠ none := by
  obtain ⟨svc, hint, reported⟩ := readPids_here work.reader sec
  unfold Work.pmt Work.handOver
  dsimp only
  rw [reported]
  by_cases first : work.reader.reportedCa = none
  · simp only [if_pos first, svc, hint, Reader.selectPids]
    exact ⟨trivial, Option.some_ne_none _⟩
  · simp only [if_neg first, Reader.selectPids]
    exact ⟨trivial, fun same => first (reported ▸ same)⟩

/-! ## Whole runs -/

/-- A client that was told nothing since it was started. -/
def Untold (watch : Watch) : Prop :=
  ∀ client, watch.camd = some client → client.candidates = [] ∧ client.serviceId = 0

/-- What the thread reported and the client knows follows from the first section
since the CHANNEL. -/
structure HandedOnce (watch : Watch) : Prop where
  reported : watch.reader.reportedCa = none ↔ watch.first = none
  told : watch.steady = true → ∃ sec, watch.first = some sec ∧ KnowsService watch sec
  untold : watch.steady = false → watch.first ≠ none → Untold watch

theorem HandedOnce.next {watch : Watch} (once : HandedOnce watch) (event : ServiceEvent) :
    HandedOnce (watch.next event) := by
  cases event with
  | channel channel => exact ⟨iff_of_true rfl rfl, nofun, fun _ absurd => (absurd rfl).elim⟩
  | camd enabled =>
      refine ⟨once.reported, nofun, fun _ _ client running => ?_⟩
      cases enabled with
      | false => cases running
      | true =>
          cases running
          exact ⟨rfl, rfl⟩
  | pmtSection sec =>
      by_cases unwatched : watch.group.svc = 0
      · rw [Watch.next, if_pos unwatched]
        exact once
      obtain ⟨camd, reported⟩ := pmt_handsOver watch.work sec
      have fresh : watch.work.reader.reportedCa = none ↔ watch.first = none := once.reported
      rw [Watch.next, if_neg unwatched, camd]
      cases first : watch.first with
      | none =>
          have unsteady : watch.steady = false := by
            cases steady : watch.steady with
            | false => rfl
            | true =>
                obtain ⟨_, same, _⟩ := once.told steady
                exact nomatch first.symm.trans same
          rw [if_pos (fresh.mpr first), unsteady]
          refine ⟨iff_of_false reported nofun, fun steady => ⟨sec, rfl, ?_⟩, fun none _ => ?_⟩
          · obtain ⟨client, running⟩ := Option.isSome_iff_exists.mp steady
            have known := setService_known client watch.group.svc
              (length_candidatesOf sec watch.group.svc watch.group.hintCaid)
            exact ⟨_, congrArg (Option.map _) running, known.1, known.2⟩
          · intro client running
            rw [show watch.work.camd = watch.camd from rfl,
              Option.isNone_iff_eq_none.mp (Option.isSome_eq_false_iff.mp none)] at running
            cases running
      | some earlier =>
          rw [if_neg (fun none => nomatch first.symm.trans (fresh.mp none)),
            show (watch.steady || ((some earlier).isNone && watch.camd.isSome)) = watch.steady from
              Bool.or_false _]
          refine ⟨iff_of_false reported nofun, fun steady => ?_, fun unsteady _ => ?_⟩
          · obtain ⟨_, same, told⟩ := once.told steady
            cases first.symm.trans same
            exact ⟨earlier, rfl, told⟩
          · exact once.untold unsteady (first ▸ nofun)

/-- No section after the first changes the client or the channel. -/
theorem HandedOnce.later_section {watch : Watch} (once : HandedOnce watch) {earlier : List UInt8}
    (first : watch.first = some earlier) (sec : List UInt8) :
    (watch.next (.pmtSection sec)).camd = watch.camd ∧
      (watch.next (.pmtSection sec)).group = watch.group := by
  have reported : watch.work.reader.reportedCa ≠ none := fun none =>
    nomatch first.symm.trans (once.reported.mp none)
  rw [Watch.next]
  split
  · exact ⟨rfl, rfl⟩
  · exact ⟨(pmt_handsOver watch.work sec).1.trans (if_neg reported), rfl⟩

/-- What a running client knows after a section. -/
theorem HandedOnce.knows_iff {watch : Watch} (once : HandedOnce watch)
    (watched : watch.group.svc ≠ 0) {client : Client} (running : watch.camd = some client)
    (sec : List UInt8) :
    (KnowsService (watch.next (.pmtSection sec)) sec ↔ ToldOf watch sec) ∧
      (KnowsList (watch.next (.pmtSection sec)) sec ↔
        ToldOf watch sec ∨ NothingToTell watch sec) := by
  cases first : watch.first with
  | none =>
      have here : (watch.next (.pmtSection sec)).first = some sec := by
        rw [Watch.next, if_neg watched, first]
        rfl
      have steady : (watch.next (.pmtSection sec)).steady = true := by
        rw [Watch.next, if_neg watched, first, running]
        exact Bool.or_true _
      obtain ⟨_, same, knows⟩ := (once.next (.pmtSection sec)).told steady
      cases here.symm.trans same
      obtain ⟨now, runs, list, service⟩ := knows
      exact ⟨iff_of_true ⟨now, runs, list, service⟩ (.inl first),
        iff_of_true ⟨now, runs, list⟩ (.inl (.inl first))⟩
  | some earlier =>
      obtain ⟨camd, group⟩ := once.later_section first sec
      have expected : (watch.next (.pmtSection sec)).expected sec = watch.expected sec := by
        rw [Watch.expected, group, Watch.expected]
      simp only [KnowsService, KnowsList, ToldOf, NothingToTell, camd, group, expected, running,
        first, Option.some.injEq, exists_eq_left', reduceCtorEq, false_or]
      cases steady : watch.steady with
      | true =>
          obtain ⟨_, same, now, runs, list, service⟩ := once.told steady
          cases first.symm.trans same
          cases running.symm.trans runs
          simp only [list, service, and_true, true_and, Bool.true_eq_false, false_and, or_false,
            and_self]
      | false =>
          obtain ⟨empty, other⟩ := once.untold steady (first ▸ nofun) client running
          have foreign : client.serviceId ≠ watch.group.svc := other ▸ watched.symm
          simp only [empty, foreign, and_false, Bool.false_eq_true, false_and, false_or, true_and,
            true_and]
          exact eq_comm

/-- In every order of CHANNEL and CAMD commands and sections on the PMT pid:
after a section of the watched service is processed, the running client knows
its candidates, for that service, exactly if the section is the first since the
CHANNEL or the client has been running since that first one and the list is
still the same. The bare list is also right when the client was told nothing
and there is nothing to tell. -/
theorem client_knows_service {final : Watch} {moves : List (Moved Watch ServiceEvent)}
    (walk : Walk (stepOf Watch.next) .fresh moves final) :
    ∀ moved ∈ moves, ∀ sec, Processes moved sec →
      (KnowsService moved.after sec ↔ ToldOf moved.before sec) ∧
      (KnowsList moved.after sec ↔ ToldOf moved.before sec ∨ NothingToTell moved.before sec) := by
  refine walk.wanted_of_allowed HandedOnce (fun _ => True) _ ?_ ?_ fun _ _ => trivial
  · intro moved step _ once
    obtain ⟨before, event, after⟩ := moved
    obtain rfl : after = before.next event := step
    refine ⟨once.next event, ?_⟩
    intro sec processed
    rcases processed with ⟨rfl, watched, _, runs⟩
    obtain ⟨client, running⟩ := Option.isSome_iff_exists.mp runs
    exact once.knows_iff watched running sec
  · exact ⟨iff_of_true rfl rfl, nofun, fun _ absurd => (absurd rfl).elim⟩

/-! ### A client that is started too late -/

/-- A PMT of service 1 with one CA system, its ECMs on pid 0x110. -/
def scrambledPmt : List UInt8 :=
  [0x02, 0xb0, 0x18, 0x00, 0x01, 0xc1, 0x00, 0x00, 0xe1, 0x01, 0xf0, 0x06, 0x09, 0x04, 0x05, 0x00,
    0xe1, 0x10, 0x02, 0xe1, 0x01, 0xf0, 0x00, 0x00, 0x00, 0x00, 0x00]

def watchedChannel : Channel := ⟨1, 0x100, 0x101, 0x1fff, 0x1fff, 0, 0⟩

/-- The client is running when the channel is chosen. -/
def clientFirst : List ServiceEvent :=
  [.camd true, .channel watchedChannel, .pmtSection scrambledPmt, .pmtSection scrambledPmt]

/-- The client is started while the channel is watched. -/
def channelFirst : List ServiceEvent :=
  [.channel watchedChannel, .pmtSection scrambledPmt, .camd true, .pmtSection scrambledPmt]

theorem client_knows_service_running :
    (clientFirst.foldl Watch.next .fresh).expected scrambledPmt = [⟨0x500, 0x110, 0⟩] ∧
    ∀ moved ∈ moves Watch.next .fresh clientFirst, ∀ sec, Processes moved sec →
      (KnowsService moved.after sec ↔ ToldOf moved.before sec) ∧
      (KnowsList moved.after sec ↔ ToldOf moved.before sec ∨ NothingToTell moved.before sec) :=
  ⟨by decide +kernel, client_knows_service (walk_moves Watch.next .fresh clientFirst)⟩

/-- The PMT of the watched service comes round with a client running, and the
client does not know its CA system. -/
theorem client_started_late :
    ∃ moved ∈ moves Watch.next .fresh channelFirst,
      Processes moved scrambledPmt ∧ ¬ KnowsList moved.after scrambledPmt := by
  refine ⟨_, List.getElem_mem (n := 3) (by decide), ⟨rfl, ?_, ?_, ?_⟩, ?_⟩
  · decide +kernel
  · decide +kernel
  · decide +kernel
  · intro known
    rcases known with ⟨client, running, knows⟩
    have lists : some client.candidates = some [] := by
      rw [← Option.map_some, ← running]
      decide +kernel
    have wanted : client.candidates = [⟨0x500, 0x110, 0⟩] := by
      rw [knows]
      decide +kernel
    exact nomatch (Option.some.inj lists).symm.trans wanted

end Stream

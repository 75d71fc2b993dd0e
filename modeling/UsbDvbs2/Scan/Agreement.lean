import Mathlib.Data.List.TakeWhile
import UsbDvbs2.Scan.PmtParse
import UsbDvbs2.Stream.PmtOutputs

/-! # Two readers of a PMT

The scanner reads the streams, the teletext and the CA system of a service out of its PMT,
and so does the engine once the service is tuned. Both are compared here on tables
whose loops are filled, for a service that the scanner did not know.
-/

namespace Scan

open Bytes Camd Stream

/-! ## Tables whose loops are filled -/

/-- A descriptor loop is filled. -/
def DescriptorsTile (sec : List UInt8) (start limit : Nat) : Prop :=
  Tiles 2 limit (fun d => octet sec (d + 1)) start

/-- The stream loop goes up to the checksum. -/
def StreamsTile (sec : List UInt8) : Prop :=
  Tiles 5 (sec.length - 4) (fun pos => be12 sec (pos + 3)) (programInfoEnd sec)

/-- The stream loop and all descriptor loops are filled. -/
structure Tiled (sec : List UInt8) : Prop where
  programme : DescriptorsTile sec 12 (programInfoEnd sec)
  streams : StreamsTile sec
  entries : ∀ pos ∈ streamEntries sec,
    DescriptorsTile sec (pos + 5) (pos + 5 + be12 sec (pos + 3))

def IsPmt (sec : List UInt8) : Prop := 16 ≤ sec.length ∧ octet sec 0 = 0x02

/-- A service that was not seen before, with room for it. -/
structure Unseen (services : List Service) (serviceId : UInt16) : Prop where
  fresh : ∀ service ∈ services, service.serviceId ≠ serviceId
  room : services.length < maxServices

variable {sec : List UInt8} {services : List Service}

theorem IsPmt.isPmtOf (pmt : IsPmt sec) : isPmtOf sec (be16 sec 3) = true := by
  simp only [Stream.isPmtOf, pmt.1, pmt.2, decide_true, beq_self_eq_true, Bool.and_self]

/-- The scanner appends what it reads. -/
theorem parsePmt_unseen (pmt : IsPmt sec) (unseen : Unseen services (be16 sec 3)) :
    parsePmt sec services = services ++ [(Service.new (be16 sec 3)).readPmt sec] := by
  have absent : services.findIdx? (·.serviceId == be16 sec 3) = none := by
    rw [List.findIdx?_eq_none_iff]
    exact fun service mem => beq_eq_false_iff_ne.2 (unseen.fresh service mem)
  have room : ¬ maxServices ≤ services.length := Nat.not_le_of_lt unseen.room
  have found : findService services (be16 sec 3) =
      some (services ++ [.new (be16 sec 3)], services.length) := by
    rw [findService, absent]
    exact if_neg room
  rw [parsePmt, if_neg fun short => short.elim (Nat.not_lt_of_le pmt.1) fun other => other pmt.2,
    found]
  change (services ++ [Service.new (be16 sec 3)]).modify services.length (Service.readPmt sec) = _
  rw [List.modify_eq_set_getElem?]
  simp

theorem StreamsTile.fits (tiles : StreamsTile sec) :
    ∀ pos ∈ streamEntries sec, entryFits sec pos = true := fun pos mem =>
  decide_eq_true (Tiles.fits (by decide) tiles pos mem)

/-- No entry is passed over. -/
theorem StreamsTile.takeWhile (tiles : StreamsTile sec) :
    (streamEntries sec).takeWhile (entryFits sec) = streamEntries sec :=
  List.takeWhile_eq_self_iff.2 tiles.fits

theorem StreamsTile.infoEnd (tiles : StreamsTile sec) : programInfoEnd sec ≤ sec.length - 4 :=
  Tiles.le tiles

theorem DescriptorsTile.takeWhile {start limit : Nat} (tiles : DescriptorsTile sec start limit) :
    ((descriptors sec start limit).takeWhile fun d => d + 2 + octet sec (d + 1) ≤ limit) =
      descriptors sec start limit :=
  List.takeWhile_eq_self_iff.2 fun d mem => decide_eq_true (Tiles.fits (by decide) tiles d mem)

/-! ## One stream -/

/-- The teletext and the CA system that the descriptors of a stream name. -/
def Service.readDescriptors (sec : List UInt8) (service : Service) (pos : Nat) : Service :=
  { service with
    teletextPid :=
      if noPid ≤ service.teletextPid ∧ isTeletext sec pos = true then be13 sec (pos + 1)
      else service.teletextPid }.readCaDescriptors sec (pos + 5) (pos + 5 + be12 sec (pos + 3))

/-- The stream as the video or the audio of the service. -/
def Service.takeStream (sec : List UInt8) (service : Service) (pos : Nat) : Service :=
  if !service.hasVideo && isVideoType (octet sec pos) then
    { service with
      videoPid := be13 sec (pos + 1)
      videoStreamType := octet sec pos
      hasVideo := true }
  else if !service.hasAudio && isAudioType (octet sec pos) then
    { service with
      audioPid := be13 sec (pos + 1)
      audioStreamType := octet sec pos
      hasAudio := true }
  else service

theorem readStream_eq (sec : List UInt8) (service : Service) (pos : Nat) :
    service.readStream sec pos = (service.readDescriptors sec pos).takeStream sec pos := rfl

/-- A service as the programme's descriptors leave it. -/
def Service.programme (sec : List UInt8) (service : Service) : Service :=
  { service with onThisTransport := true }.readCaDescriptors sec 12 (programInfoEnd sec)

theorem readPmt_eq (pmt : IsPmt sec) (tiles : StreamsTile sec) (service : Service) :
    service.readPmt sec = (streamEntries sec).foldl (Service.readStream sec)
      (service.programme sec) := by
  have long := pmt.1
  have infos := tiles.infoEnd
  rw [Service.readPmt, tiles.takeWhile, if_pos (by omega), Service.programme]

theorem readCaDescriptors_serviceId (service : Service) (sec : List UInt8) (start limit : Nat) :
    (service.readCaDescriptors sec start limit).serviceId = service.serviceId := by
  unfold Service.readCaDescriptors
  split
  · rfl
  · split <;> rfl

theorem readStream_serviceId (service : Service) (pos : Nat) :
    (service.readStream sec pos).serviceId = service.serviceId := by
  have reads : (service.readDescriptors sec pos).serviceId = service.serviceId :=
    readCaDescriptors_serviceId ..
  rw [readStream_eq, Service.takeStream, ← reads]
  split
  · rfl
  · split <;> rfl

theorem readPmt_serviceId (pmt : IsPmt sec) (tiles : StreamsTile sec) (service : Service) :
    (service.readPmt sec).serviceId = service.serviceId := by
  have streams (positions : List Nat) (service : Service) :
      (positions.foldl (Service.readStream sec) service).serviceId = service.serviceId := by
    induction positions generalizing service with
    | nil => rfl
    | cons pos positions ih => exact (ih _).trans (readStream_serviceId service pos)
  rw [readPmt_eq pmt tiles, streams]
  exact readCaDescriptors_serviceId ..

/-! ## Video and audio -/

/-- The video and the audio of a service. -/
def Service.av (service : Service) : (Bool × UInt16) × Bool × UInt16 :=
  ((service.hasVideo, service.videoPid), service.hasAudio, service.audioPid)

/-- The scanner knows a pid exactly when the engine has taken one. -/
def Service.Follows (service : Service) (pids : AvPids) : Prop :=
  service.av = ((decide (pids.video < noPid), pids.video), decide (pids.audio < noPid), pids.audio)

theorem readCaDescriptors_av (service : Service) (sec : List UInt8) (start limit : Nat) :
    (service.readCaDescriptors sec start limit).av = service.av := by
  unfold Service.readCaDescriptors
  split
  · rfl
  · split <;> rfl

theorem readStream_follows {service : Service} {pids : AvPids} {pos : Nat}
    (below : be13 sec (pos + 1) < noPid) (follows : service.Follows pids) :
    (service.readStream sec pos).Follows (pids.see sec pos) := by
  have reads : (service.readDescriptors sec pos).av = service.av := readCaDescriptors_av ..
  rw [Service.Follows, ← reads] at follows
  rw [readStream_eq]
  generalize service.readDescriptors sec pos = read at follows
  obtain ⟨video, audio⟩ := pids
  simp only [Service.av, Prod.mk.injEq] at follows
  obtain ⟨⟨hasVideo, videoPid⟩, hasAudio, audioPid⟩ := follows
  have unknown (pid : UInt16) : (!decide (pid < noPid)) = true ↔ noPid ≤ pid := by
    rw [Bool.not_eq_true', decide_eq_false_iff_not, UInt16.not_lt]
  simp only [Service.takeStream, Service.Follows, AvPids.see, Bool.and_eq_true, hasVideo, hasAudio,
    unknown, and_comm (a := noPid ≤ _)]
  split
  · simp only [Service.av, audioPid, below, decide_true]
  · split
    · simp only [Service.av, videoPid, below, decide_true]
    · simp only [Service.av, hasVideo, videoPid, hasAudio, audioPid]

theorem readStreams_follow {positions : List Nat}
    (below : ∀ pos ∈ positions, be13 sec (pos + 1) < noPid) {service : Service} {pids : AvPids}
    (follows : service.Follows pids) :
    (positions.foldl (Service.readStream sec) service).Follows
      (positions.foldl (AvPids.see sec) pids) := by
  induction positions generalizing service pids with
  | nil => exact follows
  | cons pos positions ih =>
      have here := readStream_follows (below pos (List.mem_cons_self ..)) follows
      exact ih (fun other mem => below other (List.mem_cons_of_mem _ mem)) here

/-- The pid of the first stream of some types; `noPid` for none. -/
def firstPid (sec : List UInt8) (ofType : Nat → Bool) (positions : List Nat) : UInt16 :=
  match positions.find? fun pos => ofType (octet sec pos) with
  | some pos => be13 sec (pos + 1)
  | none => noPid

theorem audio_not_video {streamType : Nat} (audio : isAudioType streamType = true) :
    isVideoType streamType = false := by
  simp only [isAudioType, decide_eq_true_eq, List.mem_cons, List.not_mem_nil, or_false] at audio
  rcases audio with rfl | rfl | rfl | rfl | rfl | rfl <;> rfl

theorem see_video (pids : AvPids) (pos : Nat) : (pids.see sec pos).video =
    if isVideoType (octet sec pos) ∧ noPid ≤ pids.video then be13 sec (pos + 1)
    else pids.video := by
  simp only [AvPids.see]
  split
  · rfl
  · split <;> rfl

theorem see_audio (pids : AvPids) (pos : Nat) : (pids.see sec pos).audio =
    if isAudioType (octet sec pos) ∧ noPid ≤ pids.audio then be13 sec (pos + 1)
    else pids.audio := by
  simp only [AvPids.see]
  split
  · rename_i video
    have other : ¬ (isAudioType (octet sec pos) = true ∧ noPid ≤ pids.audio) := fun both =>
      Bool.false_ne_true ((audio_not_video both.1).symm.trans video.1)
    rw [if_neg other]
  · split <;> rfl

/-- Of a pid that is taken from the first stream of some types. -/
theorem fold_firstPid {ofType : Nat → Bool} {taken : AvPids → UInt16}
    (step : ∀ pids pos, taken (pids.see sec pos) =
      if ofType (octet sec pos) ∧ noPid ≤ taken pids then be13 sec (pos + 1) else taken pids)
    {positions : List Nat} (below : ∀ pos ∈ positions, be13 sec (pos + 1) < noPid)
    (pids : AvPids) :
    (taken pids < noPid → taken (positions.foldl (AvPids.see sec) pids) = taken pids) ∧
      (taken pids = noPid →
        taken (positions.foldl (AvPids.see sec) pids) = firstPid sec ofType positions) := by
  induction positions generalizing pids with
  | nil => exact ⟨fun _ => rfl, id⟩
  | cons pos positions ih =>
      obtain ⟨keeps, finds⟩ := ih (fun other mem => below other (List.mem_cons_of_mem _ mem))
        (pids.see sec pos)
      have here := step pids pos
      constructor
      · intro known
        rw [if_neg fun both => UInt16.not_le.2 known both.2] at here
        rw [List.foldl_cons, keeps (here ▸ known), here]
      · intro unknown
        rw [List.foldl_cons, firstPid, List.find?_cons]
        cases typed : ofType (octet sec pos) with
        | true =>
            rw [typed, if_pos ⟨rfl, by rw [unknown]; exact UInt16.le_refl _⟩] at here
            rw [keeps (here ▸ below pos (List.mem_cons_self ..)), here]
        | false =>
            rw [typed, if_neg fun both => Bool.false_ne_true both.1] at here
            exact finds (here.trans unknown)

/-- The scanner and the engine take the same video and the same audio: the first of each. -/
theorem streams_agree {sec : List UInt8} {services : List Service} (pmt : IsPmt sec)
    (tiles : StreamsTile sec)
    (below : ∀ pos ∈ streamEntries sec, be13 sec (pos + 1) < noPid)
    (unseen : Unseen services (be16 sec 3)) :
    ∃ service, parsePmt sec services = services ++ [service] ∧ service.serviceId = be16 sec 3 ∧
      pmtLookupStreamPids sec (be16 sec 3) = ⟨service.videoPid, service.audioPid⟩ ∧
      service.videoPid = firstPid sec isVideoType (streamEntries sec) ∧
      service.audioPid = firstPid sec isAudioType (streamEntries sec) := by
  have new : ((Service.new (be16 sec 3)).programme sec).Follows .unknown :=
    (readCaDescriptors_av ..).trans rfl
  have follows := readStreams_follow below new
  rw [← readPmt_eq pmt tiles] at follows
  have video := (fold_firstPid see_video below .unknown).2 rfl
  have audio := (fold_firstPid see_audio below .unknown).2 rfl
  simp only [Service.Follows, Service.av, Prod.mk.injEq] at follows
  obtain ⟨⟨-, videoPid⟩, -, audioPid⟩ := follows
  refine ⟨_, parsePmt_unseen pmt unseen, readPmt_serviceId pmt tiles _, ?_,
    videoPid.trans video, audioPid.trans audio⟩
  rw [pmtLookupStreamPids, if_pos pmt.isPmtOf, videoPid, audioPid]

/-- A scrambled service with video, audio and teletext. -/
def newsPmt : List UInt8 :=
  [0x02, 0xb0, 0x2a, 0x00, 0x01, 0xc1, 0x00, 0x00, 0xe1, 0x01, 0xf0, 0x06, 0x09, 0x04, 0x05, 0x00,
   0xe2, 0x00, 0x1b, 0xe1, 0x01, 0xf0, 0x06, 0x09, 0x04, 0x05, 0x00, 0xe2, 0x01, 0x04, 0xe1, 0x02,
   0xf0, 0x00, 0x06, 0xe1, 0x03, 0xf0, 0x02, 0x56, 0x00, 0x4a, 0x85, 0x98, 0x49]

theorem newsPmt_isPmt : IsPmt newsPmt := ⟨by decide, by decide⟩

theorem newsPmt_tiled : Tiled newsPmt where
  programme := .entry .done
  streams := .entry (.entry (.entry .done))
  entries := by
    intro pos mem
    have listed : streamEntries newsPmt = [18, 29, 34] := by decide +kernel
    rw [listed] at mem
    simp only [List.mem_cons, List.not_mem_nil, or_false] at mem
    rcases mem with rfl | rfl | rfl
    · exact .entry .done
    · exact .done
    · exact .entry .done

theorem unseen_nil (serviceId : UInt16) : Unseen [] serviceId :=
  ⟨fun _ mem => (nomatch mem), by decide⟩

theorem streams_agree_news : ∃ service, parsePmt newsPmt [] = [service] ∧
    service.videoPid = 0x101 ∧ service.audioPid = 0x102 := by
  obtain ⟨service, parsed, -, -, video, audio⟩ := streams_agree newsPmt_isPmt newsPmt_tiled.streams
    (by decide +kernel) (unseen_nil (be16 newsPmt 3))
  exact ⟨service, parsed, video.trans (by decide +kernel), audio.trans (by decide +kernel)⟩

/-! ## Teletext -/

/-- The pids of the teletext streams, in table order. -/
def teletextPids (sec : List UInt8) : List UInt16 :=
  ((streamEntries sec).filter (isTeletext sec)).map fun pos => be13 sec (pos + 1)

/-- The last teletext stream has the pid that the scanner keeps: that of the first one
with a pid. -/
def TeletextRepeats (sec : List UInt8) : Prop :=
  ∀ pid, (teletextPids sec).find? (· < noPid) = some pid → (teletextPids sec).getLast? = some pid

theorem be13_le (bytes : List UInt8) (pos : Nat) : be13 bytes pos ≤ noPid := by
  have low := octet_lt bytes (pos + 1)
  have limit : noPid.toNat = 0x1fff := rfl
  rw [UInt16.le_iff_toNat_le, toNat_be13, limit]
  omega

theorem takeStream_teletext (service : Service) (pos : Nat) :
    (service.takeStream sec pos).teletextPid = service.teletextPid := by
  unfold Service.takeStream
  split
  · rfl
  · split <;> rfl

theorem readCaDescriptors_teletext (service : Service) (sec : List UInt8) (start limit : Nat) :
    (service.readCaDescriptors sec start limit).teletextPid = service.teletextPid := by
  unfold Service.readCaDescriptors
  split
  · rfl
  · split <;> rfl

theorem readStream_teletext (service : Service) (pos : Nat) :
    (service.readStream sec pos).teletextPid =
      if noPid ≤ service.teletextPid ∧ isTeletext sec pos = true then be13 sec (pos + 1)
      else service.teletextPid := by
  rw [readStream_eq, takeStream_teletext, Service.readDescriptors, readCaDescriptors_teletext]

/-- The scanner keeps the first teletext stream with a pid. -/
theorem readStreams_teletext (positions : List Nat) (service : Service) :
    (service.teletextPid < noPid →
      (positions.foldl (Service.readStream sec) service).teletextPid = service.teletextPid) ∧
    (service.teletextPid = noPid →
      (positions.foldl (Service.readStream sec) service).teletextPid =
        ((((positions.filter (isTeletext sec)).map fun pos => be13 sec (pos + 1)).find?
          (· < noPid)).getD noPid)) := by
  induction positions generalizing service with
  | nil => exact ⟨fun _ => rfl, id⟩
  | cons pos positions ih =>
      obtain ⟨keeps, finds⟩ := ih (service.readStream sec pos)
      have here := @readStream_teletext sec service pos
      constructor
      · intro known
        rw [if_neg fun both => UInt16.not_le.2 known both.1] at here
        rw [List.foldl_cons, keeps (here ▸ known), here]
      · intro unknown
        rw [List.foldl_cons, List.filter_cons]
        cases teletext : isTeletext sec pos with
        | false =>
            rw [teletext, if_neg fun both => Bool.false_ne_true both.2] at here
            exact finds (here.trans unknown)
        | true =>
            rw [teletext, if_pos ⟨by rw [unknown]; exact UInt16.le_refl _, rfl⟩] at here
            rw [if_pos rfl, List.map_cons, List.find?_cons]
            by_cases below : be13 sec (pos + 1) < noPid
            · rw [keeps (here ▸ below), here]
              simp only [below, decide_true, Option.getD_some]
            · have none : be13 sec (pos + 1) = noPid :=
                UInt16.le_antisymm (be13_le sec _) (UInt16.not_lt.1 below)
              rw [finds (here.trans none)]
              simp only [below, decide_false]

/-- The rebuilt table leaves the last one. -/
theorem lastTeletext_eq (positions : List Nat) (before : UInt16) :
    lastTeletext sec positions before =
      ((positions.filter (isTeletext sec)).map fun pos => be13 sec (pos + 1)).getLast?.getD
        before := by
  induction positions generalizing before with
  | nil => rfl
  | cons pos positions ih =>
      have step := ih (if isTeletext sec pos = true then be13 sec (pos + 1) else before)
      rw [lastTeletext, List.foldl_cons]
      refine step.trans ?_
      rw [List.filter_cons]
      cases isTeletext sec pos with
      | false => rfl
      | true =>
          rw [if_pos rfl, if_pos rfl, List.map_cons, List.getLast?_cons]
          rfl

theorem teletextRepeats_iff : ((teletextPids sec).find? (· < noPid)).getD noPid =
    (teletextPids sec).getLast?.getD noPid ↔ TeletextRepeats sec := by
  have limited : ∀ pid ∈ teletextPids sec, pid ≤ noPid := by
    intro pid mem
    obtain ⟨pos, -, rfl⟩ := List.mem_map.1 mem
    exact be13_le sec _
  rw [TeletextRepeats]
  generalize teletextPids sec = pids at limited
  cases first : pids.find? (· < noPid) with
  | none =>
      have last : pids.getLast?.getD noPid = noPid := by
        cases final : pids.getLast? with
        | none => rfl
        | some pid =>
            have mem := List.mem_of_getLast? final
            have high := List.find?_eq_none.1 first pid mem
            rw [decide_eq_true_eq, UInt16.not_lt] at high
            exact UInt16.le_antisymm (limited pid mem) high
      rw [last]
      exact iff_of_true rfl fun pid found => nomatch found
  | some pid =>
      have mem := List.mem_of_find?_eq_some first
      cases final : pids.getLast? with
      | none => exact absurd (List.getLast?_eq_none_iff.1 final ▸ mem) List.not_mem_nil
      | some last =>
          simp only [Option.getD_some, Option.some.injEq]
          exact ⟨fun same other found => found ▸ same.symm, fun repeats => (repeats pid rfl).symm⟩

theorem selectStreams_isSome {positions : List Nat}
    (whole : ∀ pos ∈ positions, entryFits sec pos = true) (teletext : UInt16)
    (found : List UInt16) : (selectStreams sec positions teletext found).2.isSome = true := by
  induction positions generalizing teletext found with
  | nil => rfl
  | cons pos positions ih =>
      rw [selectStreams, if_pos (whole pos (List.mem_cons_self ..))]
      exact ih (fun other mem => whole other (List.mem_cons_of_mem _ mem)) _ _

theorem runStreams_last {strip : Bool} {capacity : Nat} {positions : List Nat} {loop : StreamLoop}
    (taken : (runStreams sec strip capacity positions loop).2 = true) :
    (runStreams sec strip capacity positions loop).1.teletext =
      lastTeletext sec positions loop.teletext := by
  induction positions generalizing loop with
  | nil => rfl
  | cons pos positions ih =>
      rw [runStreams] at taken ⊢
      split at taken
      · rw [if_pos ‹_›]
        split at taken
        · contradiction
        · rw [if_neg ‹_›]
          exact ih taken
      · contradiction

/-- A table that is filled and no longer than the copy is rebuilt, and the last teletext
stream remains. -/
theorem sendSelectedPmt_teletext (pmt : IsPmt sec) (tiles : StreamsTile sec)
    (fits : sec.length ≤ sectionSize) (pid : UInt16) (strip : Bool) (streamCapacity : Nat)
    (sendto : Nat → Bool) (counter : UInt8) (writer : Writer) (outputs : PmtOutputs) :
    (udpTsSendSelectedPmt sec (be16 sec 3) pid strip streamCapacity sendto counter writer
      outputs).outputs.teletextPid =
        (teletextPids sec).getLast?.getD outputs.teletextPid := by
  have sent := (rebuildPmt_isSome fits (be16 sec 3) strip noPid).2
    ⟨pmt.isPmtOf, tiles.infoEnd, selectStreams_isSome tiles.fits _ _⟩
  rw [rebuildPmt_eq] at sent
  cases copied : copyProgram sec (be16 sec 3) strip with
  | none =>
      rw [copied] at sent
      exact nomatch sent
  | some front =>
      rw [copied, Option.bind_some, Option.isSome_map, copyStreams_run
        (min streamCapacity maxProgramPids) _ ⟨outputs.teletextPid, [], front⟩] at sent
      have taken : (runStreams sec strip (min streamCapacity maxProgramPids) (streamEntries sec)
          ⟨outputs.teletextPid, [], front⟩).2 = true := by
        by_contra turned
        rw [if_neg turned] at sent
        exact nomatch sent
      have last := (runStreams_last taken).trans (lastTeletext_eq _ _)
      simp only [udpTsSendSelectedPmt, copied, if_pos taken]
      exact last

/-- The scanner and the rebuilt table agree on the teletext exactly when the last teletext
stream repeats the pid of the first. -/
theorem teletext_agrees_iff {sec : List UInt8} {services : List Service} (pmt : IsPmt sec)
    (tiled : Tiled sec) (fits : sec.length ≤ sectionSize) (unseen : Unseen services (be16 sec 3))
    (pid : UInt16) (strip : Bool) (streamCapacity : Nat) (sendto : Nat → Bool) (counter : UInt8)
    (writer : Writer) {outputs : PmtOutputs} (starts : outputs.teletextPid = noPid) :
    ∃ service, parsePmt sec services = services ++ [service] ∧ service.serviceId = be16 sec 3 ∧
      (service.teletextPid = (udpTsSendSelectedPmt sec (be16 sec 3) pid strip streamCapacity sendto
        counter writer outputs).outputs.teletextPid ↔ TeletextRepeats sec) := by
  have new : ((Service.new (be16 sec 3)).programme sec).teletextPid = noPid :=
    readCaDescriptors_teletext ..
  have first := (@readStreams_teletext sec (streamEntries sec) _).2 new
  rw [← readPmt_eq pmt tiled.streams] at first
  refine ⟨_, parsePmt_unseen pmt unseen, readPmt_serviceId pmt tiled.streams _, ?_⟩
  rw [sendSelectedPmt_teletext pmt tiled.streams fits, starts, first]
  exact teletextRepeats_iff

theorem teletext_agrees_iff_news : ∃ service, parsePmt newsPmt [] = [service] ∧
    service.teletextPid = (udpTsSendSelectedPmt newsPmt 1 0x20 false 32 (fun _ => true) 0
      ⟨[], 0, by decide⟩ ⟨noPid, noPid, [], 0⟩).outputs.teletextPid := by
  have starts : (⟨noPid, noPid, [], 0⟩ : PmtOutputs).teletextPid = noPid := rfl
  obtain ⟨service, parsed, -, agrees⟩ := teletext_agrees_iff newsPmt_isPmt newsPmt_tiled
    (by decide) (unseen_nil (be16 newsPmt 3)) 0x20 false 32 (fun _ => true) 0 ⟨[], 0, by decide⟩
    starts
  refine ⟨service, parsed, agrees.2 ?_⟩
  have repeats : (teletextPids newsPmt).getLast? = (teletextPids newsPmt).find? (· < noPid) := by
    decide
  exact fun pid first => repeats.trans first

/-- Two teletext streams. -/
def twoTeletextPmt : List UInt8 :=
  [0x02, 0xb0, 0x1b, 0x00, 0x01, 0xc1, 0x00, 0x00, 0xe1, 0x01, 0xf0, 0x00, 0x06, 0xe1, 0x01, 0xf0,
   0x02, 0x56, 0x00, 0x06, 0xe1, 0x02, 0xf0, 0x02, 0x56, 0x00, 0xa7, 0x14, 0xc1, 0xf3]

theorem twoTeletextPmt_tiled : Tiled twoTeletextPmt where
  programme := .done
  streams := .entry (.entry .done)
  entries := by
    intro pos mem
    have listed : streamEntries twoTeletextPmt = [12, 19] := by decide +kernel
    rw [listed] at mem
    simp only [List.mem_cons, List.not_mem_nil, or_false] at mem
    rcases mem with rfl | rfl
    · exact .entry .done
    · exact .entry .done

/-- The scanner keeps the first of two teletext streams, the rebuilt table the second. -/
theorem teletext_disagrees : IsPmt twoTeletextPmt ∧ Tiled twoTeletextPmt ∧
    (parsePmt twoTeletextPmt []).map (·.teletextPid) = [0x101] ∧
    (udpTsSendSelectedPmt twoTeletextPmt 1 0x20 false 32 (fun _ => true) 0 ⟨[], 0, by decide⟩
      ⟨noPid, noPid, [], 0⟩).outputs.teletextPid = 0x102 :=
  ⟨⟨by decide, by decide⟩, twoTeletextPmt_tiled, by decide, by decide⟩

/-! ## The CA system -/

/-- A CA system and the pid that goes with it. -/
abbrev CaPair : Type := UInt16 × UInt16

/-- A CA descriptor with a system and a pid in it, at its position. -/
def namesAt (sec : List UInt8) (d : Nat) : Bool := octet sec d == 0x09 && 4 ≤ octet sec (d + 1)

def caPair (sec : List UInt8) (d : Nat) : CaPair := (be16 sec (d + 2), be13 sec (d + 4))

/-- What the CA descriptors of a loop name. -/
def loopPairs (sec : List UInt8) (start limit : Nat) : List CaPair :=
  ((descriptors sec start limit).filter (namesAt sec)).map (caPair sec)

def streamPairs (sec : List UInt8) (pos : Nat) : List CaPair :=
  loopPairs sec (pos + 5) (pos + 5 + be12 sec (pos + 3))

/-- What the CA descriptors of the programme name, and of each stream. -/
def caLoops (sec : List UInt8) : List (List CaPair) :=
  loopPairs sec 12 (programInfoEnd sec) :: (streamEntries sec).map (streamPairs sec)

/-- Once a loop has begun with a system the scanner keeps it; until then each loop
takes the place of those before. -/
def leads (known : Option CaPair) (pairs : List CaPair) : Option CaPair :=
  if known.any fun pair => pair.1 != 0 then known else pairs.head?.or known

/-- What the scanner keeps of the loops of a table. -/
def leader (loops : List (List CaPair)) : Option CaPair := loops.foldl leads none

/-- A system, and a pid of its own unless it is BISS. -/
def usable (pair : CaPair) : Bool := pair.1 != 0 && (pair.2 < noPid || isBiss pair.1)

/-! ### The scanner -/

/-- The service knows a pair, and is scrambled if there is one. -/
def Service.Knows (service : Service) (known : Option CaPair) : Prop :=
  (service.scrambled, service.caSystemId, service.caPid) =
    match known with
    | some pair => (true, pair)
    | none => (false, 0, 0)

theorem Service.Knows.system {service : Service} {known : Option CaPair}
    (knows : service.Knows known) :
    (known.any fun pair => pair.1 != 0) = (service.caSystemId != 0) := by
  cases known with
  | none => exact congrArg (fun named => named.2.1 != 0) knows.symm
  | some pair => exact congrArg (fun named => named.2.1 != 0) knows.symm

theorem Service.Knows.scrambled_eq {service : Service} {known : Option CaPair}
    (knows : service.Knows known) : service.scrambled = known.isSome := by
  cases known with
  | none => exact congrArg Prod.fst knows
  | some pair => exact congrArg Prod.fst knows

theorem Service.Knows.pair {service : Service} {pair : CaPair} (knows : service.Knows (some pair)) :
    (service.caSystemId, service.caPid) = pair := congrArg Prod.snd knows

/-- The first CA descriptor of a loop that is filled. -/
theorem find_slices {start limit : Nat} (tiles : DescriptorsTile sec start limit) :
    ((descriptorSlices sec start limit).find? namesSystem).map
      (fun raw => (be16 raw 2, be13 raw 4)) = (loopPairs sec start limit).head? := by
  have named (d : Nat) : namesSystem (slice sec d (2 + octet sec (d + 1))) = namesAt sec d := by
    rw [namesSystem, namesAt, octet_slice (by omega), octet_slice (by omega)]
    rfl
  rw [descriptorSlices, tiles.takeWhile, loopPairs]
  induction descriptors sec start limit with
  | nil => rfl
  | cons d rest ih =>
      rw [List.map_cons, List.find?_cons, List.filter_cons, named]
      cases names : namesAt sec d with
      | false => exact ih
      | true =>
          rw [namesAt, Bool.and_eq_true, decide_eq_true_eq] at names
          rw [if_pos rfl, List.map_cons, List.head?_cons, Option.map_some, be16_slice (by omega),
            be13_slice (by omega)]
          rfl

theorem readCaDescriptors_knows {service : Service} {known : Option CaPair} {start limit : Nat}
    (tiles : DescriptorsTile sec start limit) (knows : service.Knows known) :
    (service.readCaDescriptors sec start limit).Knows
      (leads known (loopPairs sec start limit)) := by
  have named := knows.system
  have found := find_slices tiles
  rw [leads, named]
  unfold Service.readCaDescriptors
  by_cases system : service.caSystemId = 0
  · simp only [system, bne_self_eq_false, Bool.false_eq_true, if_false, ne_eq, not_true_eq_false]
    rw [← found]
    cases (descriptorSlices sec start limit).find? namesSystem with
    | none => exact knows
    | some raw => rfl
  · rw [if_pos system, if_pos (bne_iff_ne.2 system)]
    exact knows

theorem takeStream_knows (service : Service) (pos : Nat) (known : Option CaPair) :
    (service.takeStream sec pos).Knows known ↔ service.Knows known := by
  unfold Service.takeStream
  split
  · rfl
  · split <;> rfl

theorem readStreams_know {positions : List Nat}
    (tiles : ∀ pos ∈ positions, DescriptorsTile sec (pos + 5) (pos + 5 + be12 sec (pos + 3)))
    {service : Service} {known : Option CaPair} (knows : service.Knows known) :
    (positions.foldl (Service.readStream sec) service).Knows
      ((positions.map (streamPairs sec)).foldl leads known) := by
  induction positions generalizing service known with
  | nil => exact knows
  | cons pos positions ih =>
      refine ih (fun other mem => tiles other (List.mem_cons_of_mem _ mem)) ?_
      rw [readStream_eq, takeStream_knows]
      exact readCaDescriptors_knows (tiles pos (List.mem_cons_self ..)) knows

theorem readPmt_knows (pmt : IsPmt sec) (tiled : Tiled sec) (serviceId : UInt16) :
    ((Service.new serviceId).readPmt sec).Knows (leader (caLoops sec)) := by
  have new : ({ Service.new serviceId with onThisTransport := true }).Knows none := rfl
  have front := readCaDescriptors_knows tiled.programme new
  rw [readPmt_eq pmt tiled.streams]
  exact readStreams_know tiled.entries front

/-! ### The engine -/

/-- A pair becomes a candidate. -/
def offer (candidates : List Candidate) (pair : CaPair) : List Candidate :=
  if maxCandidates ≤ candidates.length then candidates
  else if usable pair = false then candidates
  else if candidates.any fun other => other.caSystemId == pair.1 && other.ecmPid == pair.2 then
    candidates
  else candidates ++ [⟨pair.1, pair.2, 0⟩]

theorem usable_eq_false (pair : CaPair) :
    usable pair = false ↔ pair.1 = 0 ∨ noPid ≤ pair.2 ∧ ¬ isBiss pair.1 = true := by
  rw [usable, Bool.and_eq_false_iff, Bool.or_eq_false_iff, bne_eq_false_iff_eq,
    decide_eq_false_iff_not, UInt16.not_lt, Bool.not_eq_true]

theorem caDescriptorCandidate_eq (candidates : List Candidate) {d : Nat}
    (long : 4 ≤ octet sec (d + 1)) :
    caDescriptorCandidate sec candidates d = offer candidates (caPair sec d) := by
  have unusable := usable_eq_false (caPair sec d)
  by_cases full : maxCandidates ≤ candidates.length
  · exact (if_pos (.inr full)).trans (if_pos full).symm
  · refine (if_neg fun either => either.elim (Nat.not_lt_of_le long) full).trans
      (Eq.trans ?_ (if_neg full).symm)
    by_cases system : be16 sec (d + 2) = 0
    · exact (if_pos system).trans (if_pos (unusable.2 (.inl system))).symm
    · refine (if_neg system).trans ?_
      by_cases pid : noPid ≤ be13 sec (d + 4) ∧ ¬ isBiss (be16 sec (d + 2)) = true
      · exact (if_pos pid).trans (if_pos (unusable.2 (.inr pid))).symm
      · exact (if_neg pid).trans (if_neg fun none => (unusable.1 none).elim system pid).symm

theorem caLoop_eq (start limit : Nat) (candidates : List Candidate) :
    caLoop sec start limit candidates = (loopPairs sec start limit).foldl offer candidates := by
  rw [caLoop, loopPairs]
  induction descriptors sec start limit generalizing candidates with
  | nil => rfl
  | cons d rest ih =>
      rw [List.filter_cons, List.filter_cons, namesAt]
      cases octet sec d == 0x09 with
      | false => exact ih candidates
      | true =>
          by_cases long : 4 ≤ octet sec (d + 1)
          · simp only [long, decide_true, Bool.and_self, if_true, List.foldl_cons, List.map_cons,
              caDescriptorCandidate_eq candidates long]
            exact ih _
          · have same : caDescriptorCandidate sec candidates d = candidates :=
              if_pos (.inl (Nat.lt_of_not_le long))
            simp only [long, decide_false, Bool.and_false, if_true, List.foldl_cons, same]
            exact ih _

theorem pmtCollectCa_eq (pmt : IsPmt sec) (tiles : StreamsTile sec) :
    pmtCollectCa sec (be16 sec 3) = (caLoops sec).flatten.foldl offer [] := by
  have streams (positions : List Nat) (candidates : List Candidate) :
      positions.foldl (fun candidates pos =>
        caLoop sec (pos + 5) (pos + 5 + be12 sec (pos + 3)) candidates) candidates =
          (positions.map (streamPairs sec)).flatten.foldl offer candidates := by
    induction positions generalizing candidates with
    | nil => rfl
    | cons pos positions ih =>
        rw [List.foldl_cons, ih, List.map_cons, List.flatten_cons, List.foldl_append, caLoop_eq]
        rfl
  rw [pmtCollectCa, if_pos ⟨pmt.isPmtOf, tiles.infoEnd⟩, tiles.takeWhile, streams, caLoops,
    List.flatten_cons, List.foldl_append, caLoop_eq]

/-- The first candidate is the first pair of use. -/
theorem offers_head (pairs : List CaPair) (candidates : List Candidate) :
    (pairs.foldl offer candidates).head? =
      candidates.head?.or ((pairs.find? usable).map fun pair => ⟨pair.1, pair.2, 0⟩) := by
  induction pairs generalizing candidates with
  | nil => exact (Option.or_none).symm
  | cons pair pairs ih =>
      rw [List.foldl_cons, ih]
      cases candidates with
      | nil =>
          rw [List.find?_cons, offer, if_neg (by decide)]
          cases use : usable pair with
          | false => rfl
          | true => rfl
      | cons first others =>
          have kept : (offer (first :: others) pair).head? = some first := by
            unfold offer
            repeat' split
            all_goals rfl
          rw [kept]
          rfl

/-! ### Both -/

/-- The service is scrambled if and only if there is a candidate, and then its CA system and
pid are those of the first one. -/
def CaAgrees (service : Service) (candidates : List Candidate) : Prop :=
  (service.scrambled = true ↔ candidates ≠ []) ∧
    ∀ candidate, candidates.head? = some candidate →
      (service.caSystemId, service.caPid) = (candidate.caSystemId, candidate.ecmPid)

theorem leads_isSome (known : Option CaPair) (pairs : List CaPair) :
    (leads known pairs).isSome = (known.isSome || !pairs.isEmpty) := by
  unfold leads
  cases known with
  | none => cases pairs <;> rfl
  | some pair =>
      split
      · rfl
      · cases pairs <;> rfl

/-- Some pair is kept if and only if there is one. -/
theorem leader_isSome (loops : List (List CaPair)) (known : Option CaPair) :
    (loops.foldl leads known).isSome = (known.isSome || !loops.flatten.isEmpty) := by
  induction loops generalizing known with
  | nil => exact (Bool.or_false _).symm
  | cons pairs loops ih =>
      rw [List.foldl_cons, ih, leads_isSome, Bool.or_assoc]
      cases pairs <;> rfl

theorem caAgrees_iff {service : Service} {loops : List (List CaPair)}
    {candidates : List Candidate} (knows : service.Knows (leader loops))
    (head : candidates.head? =
      (loops.flatten.find? usable).map fun pair => ⟨pair.1, pair.2, 0⟩) :
    CaAgrees service candidates ↔ leader loops = loops.flatten.find? usable := by
  have any : (leader loops).isSome = !loops.flatten.isEmpty := leader_isSome loops none
  have offered : candidates ≠ [] ↔ (loops.flatten.find? usable).isSome = true := by
    rw [← Option.isSome_map, ← head, List.isSome_head?]
  rw [CaAgrees, offered, head, knows.scrambled_eq]
  cases kept : leader loops with
  | none =>
      have empty : loops.flatten = [] := by
        rw [kept] at any
        exact List.isEmpty_iff.1 ((Bool.not_eq_false' ..).mp any.symm)
      rw [empty]
      exact iff_of_true ⟨Iff.rfl, fun candidate none => nomatch none⟩ rfl
  | some pair =>
      rw [kept] at knows
      have same := knows.pair
      cases found : loops.flatten.find? usable with
      | none => exact iff_of_false (fun agrees => nomatch agrees.1.1 rfl) nofun
      | some first =>
          rw [same]
          refine ⟨fun agrees => congrArg some (agrees.2 _ rfl), fun both => ⟨Iff.rfl, ?_⟩⟩
          rintro candidate here
          obtain rfl := Option.some.inj here
          exact Option.some.inj both

/-- The scanner takes a service for scrambled if a CA descriptor is there, the engine has
candidates if one of them is of use, and both agree exactly when the pair that the scanner
keeps is the first one of use. -/
theorem ca_agrees_iff {sec : List UInt8} {services : List Service} (pmt : IsPmt sec)
    (tiled : Tiled sec) (unseen : Unseen services (be16 sec 3)) :
    ∃ service, parsePmt sec services = services ++ [service] ∧ service.serviceId = be16 sec 3 ∧
      (service.scrambled = true ↔ (caLoops sec).flatten ≠ []) ∧
      (∀ pair, leader (caLoops sec) = some pair → (service.caSystemId, service.caPid) = pair) ∧
      (pmtCollectCa sec (be16 sec 3)).head? =
        ((caLoops sec).flatten.find? usable).map (fun pair => ⟨pair.1, pair.2, 0⟩) ∧
      (CaAgrees service (pmtCollectCa sec (be16 sec 3)) ↔
        leader (caLoops sec) = (caLoops sec).flatten.find? usable) := by
  have knows := readPmt_knows pmt tiled (be16 sec 3)
  have any : (leader (caLoops sec)).isSome = !(caLoops sec).flatten.isEmpty :=
    leader_isSome (caLoops sec) none
  have head : (pmtCollectCa sec (be16 sec 3)).head? =
      ((caLoops sec).flatten.find? usable).map fun pair => ⟨pair.1, pair.2, 0⟩ := by
    rw [pmtCollectCa_eq pmt tiled.streams, offers_head]
    rfl
  refine ⟨_, parsePmt_unseen pmt unseen, readPmt_serviceId pmt tiled.streams _, ?_, ?_, head,
    caAgrees_iff knows head⟩
  · rw [knows.scrambled_eq, any, Bool.not_eq_true', ← Bool.not_eq_true, List.isEmpty_iff]
  · intro pair kept
    rw [kept] at knows
    exact knows.pair

theorem ca_agrees_iff_news : ∃ service, parsePmt newsPmt [] = [service] ∧
    CaAgrees service (pmtCollectCa newsPmt 1) := by
  obtain ⟨service, parsed, -, -, -, -, agrees⟩ := ca_agrees_iff newsPmt_isPmt newsPmt_tiled
    (unseen_nil (be16 newsPmt 3))
  exact ⟨service, parsed, agrees.2 (by decide)⟩

/-- A CA system without a pid. -/
def noEcmPmt : List UInt8 :=
  [0x02, 0xb0, 0x18, 0x00, 0x01, 0xc1, 0x00, 0x00, 0xe1, 0x01, 0xf0, 0x06, 0x09, 0x04, 0x05, 0x00,
   0xff, 0xff, 0x1b, 0xe1, 0x01, 0xf0, 0x00, 0xbb, 0x76, 0x1b, 0x1c]

theorem noEcmPmt_tiled : Tiled noEcmPmt where
  programme := .entry .done
  streams := .entry .done
  entries := by
    intro pos mem
    have listed : streamEntries noEcmPmt = [18] := by decide +kernel
    rw [listed] at mem
    obtain rfl := List.mem_singleton.1 mem
    exact .done

/-- The service is scrambled and there is no candidate. -/
theorem ca_disagrees : IsPmt noEcmPmt ∧ Tiled noEcmPmt ∧
    (parsePmt noEcmPmt []).map (·.scrambled) = [true] ∧ pmtCollectCa noEcmPmt 1 = [] :=
  ⟨⟨by decide, by decide⟩, noEcmPmt_tiled, by decide, by decide⟩

end Scan

import Mathlib.Data.List.Dedup
import Mathlib.Data.List.Nodup
import UsbDvbs2.Runs.Gathering
import UsbDvbs2.Scan.ScanState

/-! # The order of the sections

A scan learns which services there are, which of them are scrambled and which the
transport stream carries. A section only adds to that, and what it adds can be
read off the section, so the order in which the sections come does not matter.
-/

namespace Scan

open Bytes Camd Mpeg Stream Text Runs

/-! ## Looking a service up -/

/-- The listing that `find_service` finds. -/
def look (services : List Listing) (serviceId : UInt16) : Option Listing :=
  services.find? (·.serviceId == serviceId)

def ids (services : List Listing) : List UInt16 := services.map (·.serviceId)

theorem look_isSome {services : List Listing} {serviceId : UInt16} :
    (look services serviceId).isSome = true ↔ serviceId ∈ ids services := by
  simp [look, ids, List.find?_isSome]

/-- The two flags of a service, if it is listed. -/
def verdict (services : List Listing) (serviceId : UInt16) : Option (Bool × Bool) :=
  (look services serviceId).map fun service => (service.scrambled, service.onThisTransport)

/-- A listing changed in place. -/
theorem look_modify {services : List Listing} {change : Listing → Listing} {index : Nat}
    {asked : UInt16} (first : services.findIdx? (·.serviceId == asked) = some index)
    (same : ∀ service, (change service).serviceId = service.serviceId) (serviceId : UInt16) :
    look (services.modify index change) serviceId =
      if serviceId = asked then (look services asked).map change
      else look services serviceId := by
  induction services generalizing index with
  | nil => exact nomatch first
  | cons service services ih =>
      rw [List.findIdx?_cons] at first
      by_cases here : service.serviceId = asked
      · have zero : index = 0 := by simpa [here] using first.symm
        subst zero
        simp only [List.modify_zero_cons, look, List.find?_cons, same, here]
        by_cases other : serviceId = asked
        · simp [other]
        · have apart : (asked == serviceId) = false := beq_false_of_ne (Ne.symm other)
          simp [other, apart]
      · have apart : (service.serviceId == asked) = false := beq_false_of_ne here
        rw [apart, if_neg Bool.false_ne_true, Option.map_eq_some_iff] at first
        obtain ⟨rest, behind, rfl⟩ := first
        have onward := ih behind
        simp only [List.modify_succ_cons, look, List.find?_cons, apart] at onward ⊢
        by_cases other : serviceId = asked
        · rw [if_pos other, other, apart]
          simpa [other] using onward
        · rw [if_neg other]
          cases service.serviceId == serviceId with
          | true => rfl
          | false => simpa [other] using onward

theorem ids_modify {services : List Listing} {change : Listing → Listing}
    (same : ∀ service, (change service).serviceId = service.serviceId) (index : Nat) :
    ids (services.modify index change) = ids services := by
  induction services generalizing index with
  | nil => cases index <;> rfl
  | cons service services ih =>
      cases index with
      | zero => simp only [ids, List.modify_zero_cons, List.map_cons, same]
      | succ index =>
          rw [List.modify_succ_cons, ids, List.map_cons, ← ids, ih index]
          rfl

/-- Where `find_service` finds or makes the listing. -/
theorem findListing_some {services found : List Listing} {asked : UInt16} {index : Nat}
    (finds : findListing services asked = some (found, index)) :
    found.findIdx? (·.serviceId == asked) = some index ∧
      (∀ serviceId, look found serviceId =
        if serviceId = asked then some ((look services asked).getD (.new asked))
        else look services serviceId) ∧
      (found = services ∧ asked ∈ ids services ∨
        found = services ++ [.new asked] ∧ asked ∉ ids services) := by
  unfold findListing at finds
  cases first : services.findIdx? (·.serviceId == asked) with
  | some place =>
      rw [first] at finds
      obtain ⟨rfl, rfl⟩ := Prod.mk.inj (Option.some.inj finds)
      have listed : (look services asked).isSome = true := by
        rw [look, List.find?_isSome]
        obtain ⟨inside, here, -⟩ := List.findIdx?_eq_some_iff_getElem.1 first
        exact ⟨_, List.getElem_mem inside, here⟩
      refine ⟨first, fun serviceId => ?_, .inl ⟨rfl, look_isSome.1 listed⟩⟩
      by_cases same : serviceId = asked
      · obtain ⟨service, present⟩ := Option.isSome_iff_exists.1 listed
        rw [if_pos same, same, present]
        rfl
      · rw [if_neg same]
  | none =>
      rw [first] at finds
      have missing := List.findIdx?_eq_none_iff.1 first
      by_cases full : maxServices ≤ services.length
      · simp only [if_pos full] at finds
        contradiction
      · simp only [if_neg full] at finds
        obtain ⟨rfl, rfl⟩ := Prod.mk.inj (Option.some.inj finds)
        have unlisted : look services asked = none :=
          List.find?_eq_none.2 fun service mem => by simpa using missing service mem
        refine ⟨?_, fun serviceId => ?_, .inr ⟨rfl, fun mem => ?_⟩⟩
        · rw [List.findIdx?_append, first]
          simp [Listing.new, Service.new]
        · rw [look, List.find?_append]
          by_cases same : serviceId = asked
          · rw [if_pos same, same, ← look, unlisted]
            simp [Listing.new, Service.new]
          · have apart : ¬ asked = serviceId := Ne.symm same
            rw [if_neg same, ← look]
            simp [Listing.new, Service.new, apart]
        · rw [← look_isSome, unlisted] at mem
          contradiction

/-- What a table says of a service is found at it, and nowhere else. -/
theorem look_tell {services : List Listing} {asked : UInt16} {change : Listing → Listing}
    (room : (findListing services asked).isSome = true)
    (same : ∀ service, (change service).serviceId = service.serviceId) (serviceId : UInt16) :
    look (tell services asked change) serviceId =
      if serviceId = asked then some (change ((look services asked).getD (.new asked)))
      else look services serviceId := by
  obtain ⟨⟨found, index⟩, finds⟩ := Option.isSome_iff_exists.1 room
  obtain ⟨first, looks, -⟩ := findListing_some finds
  rw [tell, finds]
  simp only [look_modify first same, looks, if_true]
  by_cases here : serviceId = asked
  · rw [if_pos here, if_pos here]
    rfl
  · rw [if_neg here, if_neg here, if_neg here]

/-! ## What a section adds -/

/-- What a scan knows of a service. -/
inductive Fact where
  | listed (serviceId : UInt16)
  | scrambled (serviceId : UInt16)
  | carried (serviceId : UInt16)
  deriving DecidableEq

def Known (services : List Listing) : Fact → Prop
  | .listed serviceId => (look services serviceId).isSome = true
  | .scrambled serviceId => (look services serviceId).any (·.scrambled) = true
  | .carried serviceId => (look services serviceId).any (·.onThisTransport) = true

/-- A service with a CA system is scrambled, so a system that is kept hides nothing. -/
def Truthful (service : Service) : Prop := service.caSystemId ≠ 0 → service.scrambled = true

/-- A list without doubles in which only `named` services are. -/
structure Valid (named : List UInt16) (services : List Listing) : Prop where
  distinct : (ids services).Nodup
  within : ∀ serviceId ∈ ids services, serviceId ∈ named
  truthful : ∀ serviceId service, look services serviceId = some service →
    Truthful service.toService

theorem valid_nil (named : List UInt16) : Valid named [] where
  distinct := List.nodup_nil
  within := fun _ mem => nomatch mem
  truthful := fun _ _ found => nomatch found

theorem length_ids (services : List Listing) : (ids services).length = services.length :=
  List.length_map _

/-- A service is found exactly if it is listed or there is room to list it. -/
theorem findListing_isSome {services : List Listing} {asked : UInt16} :
    (findListing services asked).isSome = true ↔
      asked ∈ ids services ∨ services.length < maxServices := by
  unfold findListing
  cases first : services.findIdx? (·.serviceId == asked) with
  | some index =>
      obtain ⟨inside, here, -⟩ := List.findIdx?_eq_some_iff_getElem.mp first
      have listed : asked ∈ ids services :=
        List.mem_map.mpr ⟨_, List.getElem_mem inside, by simpa using here⟩
      exact iff_of_true rfl (.inl listed)
  | none =>
      have missing : asked ∉ ids services := by
        intro listed
        obtain ⟨service, inside, here⟩ := List.mem_map.mp listed
        have := List.findIdx?_eq_none_iff.mp first service inside
        simp [here] at this
      rw [or_iff_right missing]
      by_cases full : maxServices ≤ services.length
      · rw [if_pos full]
        exact iff_of_false nofun (Nat.not_lt.mpr full)
      · rw [if_neg full]
        exact iff_of_true rfl (Nat.not_le.mp full)

/-- There is room for every service that is named. -/
theorem Valid.room {named : List UInt16} {services : List Listing} {asked : UInt16}
    (fine : Valid named services) (few : named.length ≤ maxServices) (mem : asked ∈ named) :
    (findListing services asked).isSome = true := by
  rw [findListing_isSome]
  by_cases listed : asked ∈ ids services
  · exact .inl listed
  · have longer : (asked :: ids services).length ≤ named.length :=
      (List.nodup_cons.2 ⟨listed, fine.distinct⟩).length_le_of_subset fun serviceId listed => by
        rcases List.mem_cons.1 listed with rfl | listed
        · exact mem
        · exact fine.within serviceId listed
    rw [List.length_cons, length_ids] at longer
    exact .inr (Nat.lt_of_lt_of_le longer few)

/-- A change to one listing that adds: it may mark it scrambled or carried. -/
structure Marks (change : Listing → Listing) (scrambles carries : Bool) : Prop where
  same : ∀ service, (change service).serviceId = service.serviceId
  scrambled : ∀ service, Truthful service.toService →
    (change service).scrambled = (service.scrambled || scrambles)
  carried : ∀ service, (change service).onThisTransport = (service.onThisTransport || carries)
  truthful : ∀ service, Truthful service.toService → Truthful (change service).toService

/-- What such a change tells of a service. -/
def told (asked : UInt16) (scrambles carries : Bool) : Fact → Prop
  | .listed serviceId => serviceId = asked
  | .scrambled serviceId => serviceId = asked ∧ scrambles = true
  | .carried serviceId => serviceId = asked ∧ carries = true

theorem truthful_new (serviceId : UInt16) : Truthful (Listing.new serviceId).toService :=
  fun named => absurd rfl named

section Change

variable {change : Listing → Listing} {scrambles carries : Bool} {named : List UInt16}
  {services : List Listing} {asked : UInt16}

/-- The listing that a change is made to is truthful, old or new. -/
theorem Valid.truthful_asked (fine : Valid named services) (asked : UInt16) :
    Truthful ((look services asked).getD (.new asked)).toService := by
  cases found : look services asked with
  | none => exact truthful_new asked
  | some service => exact fine.truthful asked service found

theorem Marks.distinct (marks : Marks change scrambles carries) (fine : Valid named services)
    (room : (findListing services asked).isSome = true) :
    (ids (tell services asked change)).Nodup := by
  obtain ⟨⟨found, index⟩, finds⟩ := Option.isSome_iff_exists.1 room
  obtain ⟨-, -, same | more⟩ := findListing_some finds
  · simp only [tell, finds, ids_modify marks.same, same.1]
    exact fine.distinct
  · have longer : ids (services ++ [.new asked]) = ids services ++ [asked] := List.map_append
    simp only [tell, finds, ids_modify marks.same, more.1, longer]
    refine List.nodup_append.2 ⟨fine.distinct, by simp, ?_⟩
    rintro serviceId listed other fresh rfl
    exact more.2 (List.mem_singleton.1 fresh ▸ listed)

theorem Marks.valid (marks : Marks change scrambles carries) (fine : Valid named services)
    (room : (findListing services asked).isSome = true) (mem : asked ∈ named) :
    Valid named (tell services asked change) := by
  have looks := look_tell room marks.same
  refine ⟨marks.distinct fine room, fun serviceId listed => ?_, fun serviceId service found => ?_⟩
  · rw [← look_isSome, looks] at listed
    by_cases here : serviceId = asked
    · exact here ▸ mem
    · rw [if_neg here, look_isSome] at listed
      exact fine.within serviceId listed
  · rw [looks] at found
    by_cases here : serviceId = asked
    · rw [if_pos here] at found
      exact Option.some.inj found ▸ marks.truthful _ (fine.truthful_asked asked)
    · rw [if_neg here] at found
      exact fine.truthful serviceId service found

theorem Marks.known (marks : Marks change scrambles carries) (fine : Valid named services)
    (room : (findListing services asked).isSome = true) (fact : Fact) :
    Known (tell services asked change) fact ↔
      Known services fact ∨ told asked scrambles carries fact := by
  have looks := look_tell room marks.same
  have fresh : (Listing.new asked).scrambled = false ∧
      (Listing.new asked).onThisTransport = false := ⟨rfl, rfl⟩
  cases fact with
  | listed serviceId =>
      simp only [Known, looks, told]
      by_cases here : serviceId = asked <;> simp [here]
  | scrambled serviceId =>
      simp only [Known, looks, told]
      by_cases here : serviceId = asked
      · rw [if_pos here, here, Option.any_some, marks.scrambled _ (fine.truthful_asked asked)]
        cases look services asked <;> simp [fresh]
      · simp [here]
  | carried serviceId =>
      simp only [Known, looks, told]
      by_cases here : serviceId = asked
      · rw [if_pos here, here, Option.any_some, marks.carried]
        cases look services asked <;> simp [fresh]
      · simp [here]

/-- With room for the service the change adds what it tells. -/
theorem Marks.adds (marks : Marks change scrambles carries) (few : named.length ≤ maxServices)
    (mem : asked ∈ named) :
    Adds (Valid named) Known (tell · asked change) (told asked scrambles carries) :=
  fun _ fine =>
    have room := fine.room few mem
    ⟨marks.valid fine room mem, marks.known fine room⟩

end Change

/-! ## What a PMT says -/

/-- A descriptor loop in which a CA system is named. -/
def namesCa (sec : List UInt8) (start limit : Nat) : Bool :=
  (descriptorSlices sec start limit).any namesSystem

/-- A stream entry for which a CA system is named. -/
def streamNamesCa (sec : List UInt8) (pos : Nat) : Bool :=
  namesCa sec (pos + 5) (pos + 5 + be12 sec (pos + 3))

/-- A PMT in which a CA system is named where the scan looks for it. -/
def pmtNamesCa (sec : List UInt8) : Bool :=
  (programInfoEnd sec + 4 ≤ sec.length && namesCa sec 12 (programInfoEnd sec)) ||
    ((streamEntries sec).takeWhile (entryFits sec)).any (streamNamesCa sec)

/-- A change to a service that at most marks it scrambled. -/
structure Seals (change : Service → Service) (scrambles : Bool) : Prop where
  same : ∀ service, (change service).serviceId = service.serviceId ∧
    (change service).onThisTransport = service.onThisTransport
  scrambled : ∀ service, Truthful service →
    (change service).scrambled = (service.scrambled || scrambles)
  truthful : ∀ service, Truthful service → Truthful (change service)

theorem seals_readCaDescriptors (sec : List UInt8) (start limit : Nat) :
    Seals (·.readCaDescriptors sec start limit) (namesCa sec start limit) where
  same := by
    intro service
    unfold Service.readCaDescriptors
    split
    · exact ⟨rfl, rfl⟩
    · split <;> exact ⟨rfl, rfl⟩
  scrambled := by
    intro service truthful
    unfold Service.readCaDescriptors
    by_cases known : service.caSystemId ≠ 0
    · rw [if_pos known, truthful known, Bool.true_or]
    · rw [if_neg known]
      cases found : (descriptorSlices sec start limit).find? namesSystem with
      | none =>
          have silent : namesCa sec start limit = false := by
            rw [namesCa, List.any_eq_false]
            exact List.find?_eq_none.1 found
          rw [silent, Bool.or_false]
      | some raw =>
          have named : namesCa sec start limit = true :=
            List.any_eq_true.2 ⟨raw, List.mem_of_find?_eq_some found, List.find?_some found⟩
          rw [named, Bool.or_true]
  truthful := by
    intro service truthful
    unfold Service.readCaDescriptors
    split
    · exact truthful
    · split
      · exact fun _ => rfl
      · exact truthful

/-- The streams and the teletext are taken beside the CA system. -/
theorem readStream_seals (sec : List UInt8) (pos : Nat) (service : Service) :
    ∃ teletext : UInt16, ∀ read, { service with teletextPid := teletext }.readCaDescriptors sec
        (pos + 5) (pos + 5 + be12 sec (pos + 3)) = read →
      (service.readStream sec pos).serviceId = read.serviceId ∧
        (service.readStream sec pos).onThisTransport = read.onThisTransport ∧
        (service.readStream sec pos).scrambled = read.scrambled ∧
        (service.readStream sec pos).caSystemId = read.caSystemId := by
  refine ⟨if noPid ≤ service.teletextPid ∧ isTeletext sec pos = true then be13 sec (pos + 1)
    else service.teletextPid, fun read same => ?_⟩
  unfold Service.readStream
  simp only [same]
  split
  · exact ⟨rfl, rfl, rfl, rfl⟩
  · split <;> exact ⟨rfl, rfl, rfl, rfl⟩

theorem seals_readStream (sec : List UInt8) (pos : Nat) :
    Seals (·.readStream sec pos) (streamNamesCa sec pos) := by
  have reads := seals_readCaDescriptors sec (pos + 5) (pos + 5 + be12 sec (pos + 3))
  refine ⟨fun service => ?_, fun service truthful => ?_, fun service truthful => ?_⟩
  all_goals
    obtain ⟨teletext, frame⟩ := readStream_seals sec pos service
    obtain ⟨id, here, scrambled, system⟩ := frame _ rfl
  · rw [id, here]
    exact reads.same { service with teletextPid := teletext }
  · rw [scrambled]
    exact reads.scrambled { service with teletextPid := teletext } truthful
  · rw [Truthful, scrambled, system]
    exact reads.truthful { service with teletextPid := teletext } truthful

theorem seals_readStreams (sec : List UInt8) (positions : List Nat) :
    Seals (positions.foldl (Service.readStream sec)) (positions.any (streamNamesCa sec)) := by
  induction positions with
  | nil => exact ⟨fun _ => ⟨rfl, rfl⟩, fun _ _ => (Bool.or_false _).symm, fun _ => id⟩
  | cons pos positions ih =>
      have here := seals_readStream sec pos
      refine ⟨fun service => ?_, fun service truthful => ?_, fun service truthful => ?_⟩
      · rw [List.foldl_cons, (ih.same _).1, (ih.same _).2]
        exact here.same service
      · rw [List.foldl_cons, ih.scrambled _ (here.truthful service truthful),
          here.scrambled service truthful, List.any_cons, Bool.or_assoc]
      · exact ih.truthful _ (here.truthful service truthful)

/-- A PMT marks its service carried, and scrambled if it names a CA system. -/
theorem marks_readPmt (sec : List UInt8) :
    Marks (fun service => { service with toService := service.toService.readPmt sec })
      (pmtNamesCa sec) true := by
  let start (service : Service) : Service := { service with onThisTransport := true }
  let front (service : Service) : Service :=
    if programInfoEnd sec + 4 ≤ sec.length then
      (start service).readCaDescriptors sec 12 (programInfoEnd sec)
    else start service
  have programme := seals_readCaDescriptors sec 12 (programInfoEnd sec)
  have streams := seals_readStreams sec ((streamEntries sec).takeWhile (entryFits sec))
  have reads (service : Service) : service.readPmt sec =
      ((streamEntries sec).takeWhile (entryFits sec)).foldl (Service.readStream sec)
        (front service) := rfl
  have same (service : Service) : (front service).serviceId = service.serviceId ∧
      (front service).onThisTransport = true := by
    by_cases fits : programInfoEnd sec + 4 ≤ sec.length
    · simp only [front, if_pos fits]
      exact programme.same (start service)
    · simp only [front, if_neg fits]
      exact ⟨rfl, rfl⟩
  have truthful (service : Service) (kept : Truthful service) : Truthful (front service) := by
    by_cases fits : programInfoEnd sec + 4 ≤ sec.length
    · simp only [front, if_pos fits]
      exact programme.truthful (start service) kept
    · simp only [front, if_neg fits]
      exact kept
  have scrambled (service : Service) (kept : Truthful service) : (front service).scrambled =
      (service.scrambled || (programInfoEnd sec + 4 ≤ sec.length &&
        namesCa sec 12 (programInfoEnd sec))) := by
    by_cases fits : programInfoEnd sec + 4 ≤ sec.length
    · simp only [front, fits, if_true, decide_true, Bool.true_and]
      exact programme.scrambled (start service) kept
    · simp only [front, fits, if_false, decide_false, Bool.false_and, Bool.or_false]
      rfl
  refine ⟨fun service => ?_, fun service kept => ?_, fun service => ?_, fun service kept => ?_⟩
  · rw [reads, (streams.same _).1, (same _).1]
  · rw [reads, streams.scrambled _ (truthful _ kept), scrambled _ kept, pmtNamesCa, Bool.or_assoc]
  · rw [reads, (streams.same _).2, (same _).2, Bool.or_true]
  · rw [reads]
    exact streams.truthful _ (truthful _ kept)

/-! ## What the other tables say -/

theorem marks_readProgram (pid : UInt16) :
    Marks (fun service => { service with pmtPid := pid, onThisTransport := true }) false true where
  same := fun _ => rfl
  scrambled := fun _ _ => (Bool.or_false _).symm
  carried := fun _ => (Bool.or_true _).symm
  truthful := fun _ => id

/-- The texts of an SDT are all that its descriptors change. -/
theorem readDescriptors_toService (raws : List (List UInt8)) (service : Listing) :
    (raws.foldl Listing.readDescriptor service).toService = service.toService := by
  induction raws generalizing service with
  | nil => rfl
  | cons raw raws ih =>
      rw [List.foldl_cons, ih, Listing.readDescriptor]
      split <;> rfl

/-- An SDT entry marks its service scrambled if it says so. -/
theorem marks_readSdt (sec : List UInt8) (pos : Nat) :
    Marks (Listing.readSdt sec pos) (freeCaMode sec pos) false := by
  have reads (service : Listing) : (Listing.readSdt sec pos service).toService =
      if freeCaMode sec pos then { service.toService with scrambled := true }
      else service.toService := by
    rw [Listing.readSdt, readDescriptors_toService]
    split <;> rfl
  refine ⟨fun service => ?_, fun service _ => ?_, fun service => ?_, fun service kept => ?_⟩
  all_goals
    rw [reads]
    cases freeCaMode sec pos
  · rfl
  · rfl
  · exact (Bool.or_false _).symm
  · exact (Bool.or_true _).symm
  · exact (Bool.or_false _).symm
  · exact (Bool.or_false _).symm
  · exact kept
  · exact fun _ => rfl

/-! ## What a section says -/

/-- The services that a section names. -/
def namedBy (sec : List UInt8) : List UInt16 :=
  if ¬ Intact sec then []
  else if octet sec 0 = 0x00 then
    if sec.length < 12 then [] else ((patEntries sec).map (be16 sec)).filter (· ≠ 0)
  else if octet sec 0 = 0x02 then if sec.length < 16 then [] else [be16 sec 3]
  else if octet sec 0 = 0x42 ∨ octet sec 0 = 0x46 then
    if sec.length < 15 then [] else (sdtEntries sec).map (be16 sec)
  else []

def patTells (sec : List UInt8) (fact : Fact) : Prop :=
  if sec.length < 12 ∨ octet sec 0 ≠ 0x00 then False
  else ∃ pos ∈ patEntries sec, be16 sec pos ≠ 0 ∧ told (be16 sec pos) false true fact

def pmtTells (sec : List UInt8) (fact : Fact) : Prop :=
  if sec.length < 16 ∨ octet sec 0 ≠ 0x02 then False
  else told (be16 sec 3) (pmtNamesCa sec) true fact

def sdtTells (sec : List UInt8) (fact : Fact) : Prop :=
  if sec.length < 15 ∨ octet sec 0 ≠ 0x42 ∧ octet sec 0 ≠ 0x46 then False
  else ∃ pos ∈ sdtEntries sec, told (be16 sec pos) (freeCaMode sec pos) false fact

/-- What a section tells of the services. -/
def sectionTells (sec : List UInt8) (fact : Fact) : Prop :=
  if ¬ Intact sec then False
  else if octet sec 0 = 0x00 then patTells sec fact
  else if octet sec 0 = 0x02 then pmtTells sec fact
  else if octet sec 0 = 0x42 ∨ octet sec 0 = 0x46 then sdtTells sec fact
  else False

/-- A state whose services are a valid list. -/
def Fine (named : List UInt16) (state : ParserState) : Prop := Valid named state.services

def Knows (state : ParserState) : Fact → Prop := Known state.services

section Sections

variable {named : List UInt16} {sec : List UInt8}

/-- What is added to the services is added to the state. -/
theorem adds_services {step : ParserState → ParserState} {change : List Listing → List Listing}
    {tells : Fact → Prop} (adds : Adds (Valid named) Known change tells)
    (services : ∀ state, (step state).services = change state.services) :
    Adds (Fine named) Knows step tells := by
  intro state fine
  rw [Fine, Knows, services]
  exact adds state.services fine

theorem readProgram_services (sec : List UInt8) (state : ParserState) (pos : Nat) :
    (state.readProgram sec pos).services =
      if be16 sec pos = 0 then state.services
      else tell state.services (be16 sec pos) fun service =>
        { service with pmtPid := be13 sec (pos + 2), onThisTransport := true } := by
  unfold ParserState.readProgram
  by_cases network : be16 sec pos = 0
  · rw [if_pos network, if_pos network]
  · rw [if_neg network, if_neg network, tell]
    cases findListing state.services (be16 sec pos) <;> rfl

theorem adds_readProgram (few : named.length ≤ maxServices) {pos : Nat}
    (within : be16 sec pos ≠ 0 → be16 sec pos ∈ named) :
    Adds (Fine named) Knows (ParserState.readProgram sec · pos) fun fact =>
      be16 sec pos ≠ 0 ∧ told (be16 sec pos) false true fact := by
  refine @adds_services _ _ (fun services => if be16 sec pos = 0 then services
    else tell services (be16 sec pos) fun service =>
      { service with pmtPid := be13 sec (pos + 2), onThisTransport := true }) _ ?_ fun state =>
        readProgram_services sec state pos
  refine (Adds.ite (fun _ => .nothing) fun service =>
    (marks_readProgram _).adds few (within service)).iff fun fact => ?_
  by_cases network : be16 sec pos = 0 <;> simp [network]

theorem adds_parsePat (few : named.length ≤ maxServices)
    (within : ∀ pos ∈ patEntries sec, 12 ≤ sec.length → be16 sec pos ≠ 0 →
      be16 sec pos ∈ named) :
    Adds (Fine named) Knows (ParserState.parsePat sec) (patTells sec) :=
  .ite (fun _ => .nothing) fun reads => Adds.foldl fun pos mem =>
    adds_readProgram few (within pos mem (Nat.not_lt.1 fun short => reads (.inl short)))

theorem adds_parsePmt (few : named.length ≤ maxServices)
    (within : 16 ≤ sec.length → be16 sec 3 ∈ named) :
    Adds (Fine named) Knows (ParserState.parsePmt sec) (pmtTells sec) :=
  .ite (fun _ => .nothing) fun reads => adds_services
    ((marks_readPmt sec).adds few (within (Nat.not_lt.1 fun short => reads (.inl short))))
    fun _ => rfl

theorem adds_parseSdt (few : named.length ≤ maxServices)
    (within : ∀ pos ∈ sdtEntries sec, 15 ≤ sec.length → be16 sec pos ∈ named) :
    Adds (Fine named) Knows (ParserState.parseSdt sec) (sdtTells sec) :=
  .ite (fun _ => .nothing) fun reads => adds_services
    (Adds.foldl fun pos mem => (marks_readSdt sec pos).adds few
      (within pos mem (Nat.not_lt.1 fun short => reads (.inl short))))
    fun _ => rfl

/-- A section adds what it tells. -/
theorem adds_parseSection (few : named.length ≤ maxServices)
    (within : ∀ serviceId ∈ namedBy sec, serviceId ∈ named) :
    Adds (Fine named) Knows (ParserState.parseSection · sec) (sectionTells sec) := by
  unfold namedBy at within
  refine .ite (fun _ => .nothing) fun intact => .ite (fun pat => ?_) fun noPat =>
    .ite (fun pmt => ?_) fun noPmt => .ite (fun sdt => ?_) fun _ => .nothing
  · rw [if_neg intact, if_pos pat] at within
    refine adds_parsePat few fun pos mem long named => within _ ?_
    rw [if_neg (Nat.not_lt.2 long), List.mem_filter, decide_eq_true_eq]
    exact ⟨List.mem_map_of_mem mem, named⟩
  · rw [if_neg intact, if_neg noPat, if_pos pmt] at within
    refine adds_parsePmt few fun long => within _ ?_
    rw [if_neg (Nat.not_lt.2 long)]
    exact List.mem_singleton_self _
  · rw [if_neg intact, if_neg noPat, if_neg noPmt, if_pos sdt] at within
    refine adds_parseSdt few fun pos mem long => within _ ?_
    rw [if_neg (Nat.not_lt.2 long)]
    exact List.mem_map_of_mem mem

end Sections

/-! ## The flags that stay -/

/-- Every service stays where it is, and a scrambled one stays scrambled. -/
def Keeps (before after : List Listing) : Prop :=
  ∀ (index : Nat) (service : Listing), before[index]? = some service →
    ∃ later, after[index]? = some later ∧ later.serviceId = service.serviceId ∧
      (service.scrambled = true → later.scrambled = true)

theorem Keeps.refl (services : List Listing) : Keeps services services :=
  fun _ service here => ⟨service, here, rfl, id⟩

theorem Keeps.trans {before between after : List Listing} (first : Keeps before between)
    (second : Keeps between after) : Keeps before after := by
  intro index service here
  obtain ⟨later, there, id, kept⟩ := first index service here
  obtain ⟨last, final, same, still⟩ := second index later there
  exact ⟨last, final, same.trans id, fun scrambled => still (kept scrambled)⟩

theorem keeps_tell {change : Listing → Listing} {scrambles carries : Bool}
    (marks : Marks change scrambles carries) (services : List Listing) (asked : UInt16) :
    Keeps services (tell services asked change) := by
  unfold tell
  cases finds : findListing services asked with
  | none => exact .refl services
  | some found =>
      obtain ⟨found, place⟩ := found
      obtain ⟨-, -, longer⟩ := findListing_some finds
      intro index service here
      have still : found[index]? = some service := by
        rcases longer with ⟨rfl, -⟩ | ⟨rfl, -⟩
        · exact here
        · rw [List.getElem?_append_left (List.getElem?_eq_some_iff.1 here).1, here]
      simp only [List.getElem?_modify, still, Option.map_eq_map, Option.map_some]
      by_cases changed : place = index
      · refine ⟨change service, by simp [changed], marks.same service, fun scrambled => ?_⟩
        rw [marks.scrambled service fun _ => scrambled, scrambled, Bool.true_or]
      · exact ⟨service, by simp [changed], rfl, id⟩

theorem keeps_foldl {State Item : Type} {services : State → List Listing}
    {step : State → Item → State}
    (each : ∀ state item, Keeps (services state) (services (step state item)))
    (items : List Item) (state : State) :
    Keeps (services state) (services (items.foldl step state)) := by
  induction items generalizing state with
  | nil => exact .refl _
  | cons item items ih => exact (each state item).trans (ih (step state item))

theorem keeps_readProgram (sec : List UInt8) (state : ParserState) (pos : Nat) :
    Keeps state.services (state.readProgram sec pos).services := by
  rw [readProgram_services]
  split
  · exact .refl _
  · exact keeps_tell (marks_readProgram _) _ _

/-- No section clears the scrambled flag of a service. -/
theorem keeps_parseSection (state : ParserState) (sec : List UInt8) :
    Keeps state.services (state.parseSection sec).services := by
  unfold ParserState.parseSection
  split
  · exact .refl _
  · split
    · unfold ParserState.parsePat
      split
      · exact .refl _
      · exact keeps_foldl (keeps_readProgram sec) _ state
    · split
      · unfold ParserState.parsePmt
        split
        · exact .refl _
        · exact keeps_tell (marks_readPmt sec) _ _
      · split
        · unfold ParserState.parseSdt
          split
          · exact .refl _
          · exact @keeps_foldl _ _ id _
              (fun services pos => keeps_tell (marks_readSdt sec pos) services _) _ _
        · exact .refl _

/-! ## Sections in any order -/

/-- The verdict is what is known. -/
theorem verdict_of_known {services others : List Listing}
    (same : ∀ fact, Known services fact ↔ Known others fact) (serviceId : UInt16) :
    verdict services serviceId = verdict others serviceId := by
  have listed := same (.listed serviceId)
  have scrambled := same (.scrambled serviceId)
  have carried := same (.carried serviceId)
  simp only [Known] at listed scrambled carried
  unfold verdict
  cases here : look services serviceId with
  | none =>
      cases there : look others serviceId with
      | none => rfl
      | some other => simp [here, there] at listed
  | some service =>
      cases there : look others serviceId with
      | none => simp [here, there] at listed
      | some other =>
          rw [here, there, Option.any_some, Option.any_some, ← Bool.eq_iff_iff] at scrambled carried
          rw [Option.map_some, Option.map_some, scrambled, carried]

/-- Sections in another order list the same services with the same flags, if there
is room for all of them; and whatever has been parsed, another section leaves
every service where it is and every scrambled one scrambled. -/
theorem parseSections_order_free :
    (∀ (sections others : List (List UInt8)) (contexts : List (UInt16 × Context)),
      sections.Perm others → (sections.flatMap namedBy).dedup.length ≤ maxServices →
        (ids ((ParserState.mk [] contexts).parseSections sections).services).Perm
            (ids ((ParserState.mk [] contexts).parseSections others).services) ∧
          ∀ serviceId,
            verdict ((ParserState.mk [] contexts).parseSections sections).services serviceId =
              verdict ((ParserState.mk [] contexts).parseSections others).services serviceId) ∧
      ∀ (state : ParserState) (sec : List UInt8),
        Keeps state.services (state.parseSection sec).services := by
  refine ⟨fun sections others contexts perm few => ?_, keeps_parseSection⟩
  have within (sec : List UInt8) (mem : sec ∈ sections) (serviceId : UInt16)
      (named : serviceId ∈ namedBy sec) : serviceId ∈ (sections.flatMap namedBy).dedup :=
    List.mem_dedup.2 (List.mem_flatMap.2 ⟨sec, mem, named⟩)
  have each (sec : List UInt8) (mem : sec ∈ sections) :=
    adds_parseSection few (within sec mem)
  have also (sec : List UInt8) (mem : sec ∈ others) := each sec (perm.mem_iff.2 mem)
  have fine : Fine (sections.flatMap namedBy).dedup ⟨[], contexts⟩ := valid_nil _
  have known := Adds.perm perm each fine
  refine ⟨(List.perm_ext_iff_of_nodup ?_ ?_).2 fun serviceId => ?_, verdict_of_known known⟩
  · exact (Adds.foldl each _ fine).1.distinct
  · exact (Adds.foldl also _ fine).1.distinct
  · rw [← look_isSome, ← look_isSome]
    exact known (.listed serviceId)

/-- The PMT's CA system is heeded on either side of an SDT that marks the service free. -/
theorem parseSections_order_free_marked :
    verdict ((ParserState.mk [] []).parseSections [freeSdt, scrambledPmt.bytes]).services 1 =
        verdict ((ParserState.mk [] []).parseSections [scrambledPmt.bytes, freeSdt]).services 1 ∧
      verdict ((ParserState.mk [] []).parseSections [scrambledPmt.bytes, freeSdt]).services 1 =
        some (true, true) :=
  ⟨(parseSections_order_free.1 _ _ [] (List.Perm.swap scrambledPmt.bytes freeSdt [])
    (by decide +kernel)).2 1, by decide +kernel⟩

end Scan

import Mathlib.Data.List.Induction
import UsbDvbs2.Bytes.Checked
import UsbDvbs2.Stream.PmtRewrite

/-! # The lookups stay in the section

What the stream thread looks up in a PAT and in a PMT, with every read where the code has it.
-/

namespace Stream

open Bytes Camd

variable {sec : List UInt8}

/-! ## The PAT -/

/-- An entry of the loop of `pat_lookup_pmt_pid`. -/
def patTurn? (sec : List UInt8) (service : UInt16) (pos : Nat) (pid : UInt16) :
    Option (Option Nat × UInt16) := do
  let sid ← be16? sec pos
  if sid = service then
    let listed ← be13? sec (pos + 2)
    return (none, listed)
  else return (some (pos + 4), pid)

def patLookupPmtPid? (sec : List UInt8) (service : UInt16) : Option UInt16 :=
  if sec.length < 12 then some noPid
  else do
    let tableId ← octet? sec 0
    if tableId ≠ 0x00 then return noPid
    else
      let limit ← sub? sec.length 4
      scan? 4 limit (patTurn? sec service) 8 noPid

theorem patTurn_walks {limit : Nat} (inside : limit ≤ sec.length) (service : UInt16) :
    Walks 4 limit (fun _ => 0) (patTurn? sec service)
      (fun pos pid =>
        if decide (be16 sec pos = service) then (false, be13 sec (pos + 2)) else (true, pid))
      (fun _ _ => True) where
  positive := by decide
  turns := by
    intro pos pid fits _
    rw [patTurn?, be16?_eq (by omega), be13?_eq (by omega), onward]
    by_cases here : be16 sec pos = service <;> simp [here]
  keeps := fun _ _ _ => trivial

theorem patLookupPmtPid?_eq (sec : List UInt8) (service : UInt16) :
    patLookupPmtPid? sec service = some (patLookupPmtPid sec service) := by
  unfold patLookupPmtPid? patLookupPmtPid
  by_cases short : sec.length < 12
  · rw [if_pos short, if_pos (.inl short)]
  · rw [if_neg short, octet?_eq (by omega), sub?_eq (by omega)]
    by_cases other : octet sec 0 ≠ 0x00
    · rw [if_pos (.inr other)]
      exact if_pos other
    · rw [if_neg (not_or_intro short other)]
      refine (if_neg other).trans ?_
      refine ((patTurn_walks (Nat.sub_le sec.length 4) service).scan trivial).trans ?_
      exact congrArg some (walk_find _ _ _ _)

/-! ## The streams of a PMT -/

/-- `if (size < 16 || section[0] != 0x02) ...` and the service behind it. -/
def isPmtOf? (sec : List UInt8) (service : UInt16) : Option Bool :=
  if sec.length < 16 then some false
  else do
    let tableId ← octet? sec 0
    if tableId ≠ 0x02 then return false
    else
      let sid ← be16? sec 3
      return sid == service

theorem isPmtOf?_eq (sec : List UInt8) (service : UInt16) :
    isPmtOf? sec service = some (isPmtOf sec service) := by
  unfold isPmtOf? isPmtOf
  by_cases short : sec.length < 16
  · rw [if_pos short, decide_eq_false (by omega), Bool.false_and, Bool.false_and]
  · rw [if_neg short, octet?_eq (by omega), be16?_eq (by omega), decide_eq_true (by omega),
      Bool.true_and]
    by_cases table : octet sec 0 = 0x02 <;> simp [table]

theorem isPmtOf_length {service : UInt16} (read : isPmtOf sec service = true) :
    16 ≤ sec.length := by
  simp only [isPmtOf, Bool.and_eq_true, decide_eq_true_eq] at read
  exact read.1.1

/-- An entry of the loop of `pmt_lookup_stream_pids`. -/
def streamPidTurn? (sec : List UInt8) (pos : Nat) (pids : AvPids) :
    Option (Option Nat × AvPids) := do
  let streamType ← octet? sec pos
  let pid ← be13? sec (pos + 1)
  let length ← be12? sec (pos + 3)
  let seen :=
    if isVideoType streamType ∧ noPid ≤ pids.video then { pids with video := pid }
    else if isAudioType streamType ∧ noPid ≤ pids.audio then { pids with audio := pid }
    else pids
  return (some (pos + 5 + length), seen)

def pmtLookupStreamPids? (sec : List UInt8) (service : UInt16) : Option AvPids := do
  let wanted ← isPmtOf? sec service
  if wanted then
    let length ← be12? sec 10
    let limit ← sub? sec.length 4
    scan? 5 limit (streamPidTurn? sec) (12 + length) .unknown
  else return .unknown

theorem streamPidTurn_reads {limit : Nat} (inside : limit ≤ sec.length) :
    Reads 5 limit (fun pos => be12 sec (pos + 3)) (streamPidTurn? sec) (fun _ => true)
      (fun pids pos => pids.see sec pos) where
  positive := by decide
  turns := by
    intro pos pids begins
    rw [streamPidTurn?, octet?_eq (by omega), be13?_eq (by omega), be12?_eq (by omega)]
    rfl

theorem pmtLookupStreamPids?_eq (sec : List UInt8) (service : UInt16) :
    pmtLookupStreamPids? sec service = some (pmtLookupStreamPids sec service) := by
  rw [pmtLookupStreamPids?, isPmtOf?_eq, pmtLookupStreamPids]
  cases read : isPmtOf sec service with
  | false => rfl
  | true =>
      have long := isPmtOf_length read
      have info : be12? sec 10 = some (be12 sec 10) := be12?_eq (by omega)
      have limit : sub? sec.length 4 = some (sec.length - 4) := sub?_eq (by omega)
      simp only [Option.bind_eq_bind, Option.bind_some, if_true, info, limit]
      exact (streamPidTurn_reads (Nat.sub_le sec.length 4)).scan_all _ _

/-! ## The CA descriptors of a PMT -/

/-- `ca_descriptor_candidate`, of the descriptor at a position. -/
def caDescriptorCandidate? (sec : List UInt8) (pos : Nat) (candidates : List Candidate) :
    Option (List Candidate) := do
  let length ← octet? sec (pos + 1)
  if length < 4 ∨ maxCandidates ≤ candidates.length then return candidates
  else
    let caSystemId ← be16? sec (pos + 2)
    let ecmPid ← be13? sec (pos + 4)
    if caSystemId = 0 then return candidates
    else if noPid ≤ ecmPid ∧ ¬ isBiss caSystemId then return candidates
    else if candidates.any fun other =>
        other.caSystemId == caSystemId && other.ecmPid == ecmPid then
      return candidates
    else return candidates ++ [⟨caSystemId, ecmPid, 0⟩]

/-- A descriptor of a loop of `pmt_collect_ca`, which is not held against the end of its loop. -/
def caTurn? (sec : List UInt8) (pos : Nat) (candidates : List Candidate) :
    Option (Option Nat × List Candidate) := do
  let tag ← octet? sec pos
  let candidates ← if tag = 0x09 then caDescriptorCandidate? sec pos candidates else some candidates
  let length ← octet? sec (pos + 1)
  return (some (pos + 2 + length), candidates)

def caLoop? (sec : List UInt8) (start limit : Nat) (candidates : List Candidate) :
    Option (List Candidate) :=
  scan? 2 limit (caTurn? sec) start candidates

/-- An entry of the stream loop of `pmt_collect_ca`. -/
def caStream? (sec : List UInt8) (limit pos : Nat) (candidates : List Candidate) :
    Option (Option Nat × List Candidate) := do
  let length ← be12? sec (pos + 3)
  if limit < pos + 5 + length then return (none, candidates)
  else
    let candidates ← caLoop? sec (pos + 5) (pos + 5 + length) candidates
    return (some (pos + 5 + length), candidates)

def pmtCollectCa? (sec : List UInt8) (service : UInt16) : Option (List Candidate) := do
  let wanted ← isPmtOf? sec service
  if wanted then
    let length ← be12? sec 10
    let limit ← sub? sec.length 4
    if limit < 12 + length then return []
    else
      let candidates ← caLoop? sec 12 (12 + length) []
      scan? 5 limit (caStream? sec limit) (12 + length) candidates
  else return []

/-- The last descriptor of a loop is read up to its sixth byte, whatever its length says: that is
at most the last byte of the checksum. -/
theorem caDescriptorCandidate?_eq {pos : Nat} (inside : pos + 6 ≤ sec.length)
    (candidates : List Candidate) :
    caDescriptorCandidate? sec pos candidates =
      some (caDescriptorCandidate sec candidates pos) := by
  rw [caDescriptorCandidate?, octet?_eq (by omega), be16?_eq (by omega), be13?_eq (by omega),
    caDescriptorCandidate]
  simp only [Option.bind_eq_bind, Option.bind_some, apply_ite some]
  rfl

theorem caTurn_reads {limit : Nat} (inside : limit + 4 ≤ sec.length) :
    Reads 2 limit (fun pos => octet sec (pos + 1)) (caTurn? sec) (fun _ => true)
      (fun candidates pos =>
        if octet sec pos == 0x09 then caDescriptorCandidate sec candidates pos
        else candidates) where
  positive := by decide
  turns := by
    intro pos candidates begins
    have tag : octet? sec pos = some (octet sec pos) := octet?_eq (by omega)
    have length : octet? sec (pos + 1) = some (octet sec (pos + 1)) := octet?_eq (by omega)
    have candidate := caDescriptorCandidate?_eq (show pos + 6 ≤ sec.length by omega) candidates
    simp only [caTurn?, tag, length, candidate, Option.bind_eq_bind, Option.bind_some]
    by_cases here : octet sec pos = 0x09 <;> simp [here]

theorem caLoop?_eq {limit : Nat} (inside : limit + 4 ≤ sec.length) (start : Nat)
    (candidates : List Candidate) :
    caLoop? sec start limit candidates = some (caLoop sec start limit candidates) := by
  refine ((caTurn_reads inside).scan_all start candidates).trans ?_
  rw [caLoop, List.foldl_filter]
  rfl

theorem caStream_reads {limit : Nat} (inside : limit + 4 ≤ sec.length) :
    Reads 5 limit (fun pos => be12 sec (pos + 3)) (caStream? sec limit)
      (fun pos => pos + 5 + be12 sec (pos + 3) ≤ limit)
      (fun candidates pos =>
        caLoop sec (pos + 5) (pos + 5 + be12 sec (pos + 3)) candidates) where
  positive := by decide
  turns := by
    intro pos candidates begins
    have length : be12? sec (pos + 3) = some (be12 sec (pos + 3)) := be12?_eq (by omega)
    simp only [caStream?, length, Option.bind_eq_bind, Option.bind_some]
    by_cases overruns : limit < pos + 5 + be12 sec (pos + 3)
    · rw [if_pos overruns, if_neg (by simpa using overruns)]
      rfl
    · rw [if_neg overruns, if_pos (by simpa using overruns),
        caLoop?_eq (by omega) (pos + 5) candidates]
      rfl

theorem pmtCollectCa?_eq (sec : List UInt8) (service : UInt16) :
    pmtCollectCa? sec service = some (pmtCollectCa sec service) := by
  rw [pmtCollectCa?, isPmtOf?_eq, pmtCollectCa]
  cases read : isPmtOf sec service with
  | false => rfl
  | true =>
      have long := isPmtOf_length read
      have info : be12? sec 10 = some (be12 sec 10) := be12?_eq (by omega)
      have limit : sub? sec.length 4 = some (sec.length - 4) := sub?_eq (by omega)
      simp only [Option.bind_eq_bind, Option.bind_some, if_true, true_and, info, limit]
      by_cases overruns : sec.length - 4 < 12 + be12 sec 10
      · rw [if_pos overruns, if_neg (show ¬ programInfoEnd sec ≤ _ from Nat.not_le.mpr overruns)]
        rfl
      · rw [if_neg overruns, if_pos (show programInfoEnd sec ≤ _ from Nat.not_lt.mp overruns),
          caLoop?_eq (by omega), Option.bind_some]
        exact (caStream_reads (by omega)).scan _ _

/-! ## Descriptor loops -/

section Descriptors

variable {α : Type}

/-- A descriptor, unless it overruns its loop. -/
def descriptorTurn? (sec : List UInt8) (limit : Nat)
    (visit : (tag length d : Nat) → α → Option (Bool × α)) (d : Nat) (carried : α) :
    Option (Option Nat × α) := do
  let tag ← octet? sec d
  let length ← octet? sec (d + 1)
  if limit < d + 2 + length then return (none, carried)
  else
    let (goes, carried) ← visit tag length d carried
    return (if goes then some (d + 2 + length) else none, carried)

/-- A descriptor loop, which `visit` may leave. -/
def descriptorLoop? (sec : List UInt8) (start limit : Nat)
    (visit : (tag length d : Nat) → α → Option (Bool × α)) (carried : α) : Option α :=
  scan? 2 limit (descriptorTurn? sec limit visit) start carried

/-- A descriptor loop goes through its whole descriptors, as long as what they leave `holds`. -/
theorem descriptorLoop?_holds {limit : Nat} (inside : limit ≤ sec.length)
    {visit : (tag length d : Nat) → α → Option (Bool × α)} (turn : Nat → α → Bool × α)
    {holds : Nat → α → Prop}
    (visits : ∀ {d : Nat} {carried : α}, d + 2 + octet sec (d + 1) ≤ limit → holds d carried →
      visit (octet sec d) (octet sec (d + 1)) d carried = some (turn d carried))
    (keeps : ∀ {d : Nat} {carried : α}, d + 2 + octet sec (d + 1) ≤ limit → holds d carried →
      (turn d carried).1 = true → holds (d + 2 + octet sec (d + 1)) (turn d carried).2)
    {start : Nat} {carried : α} (here : holds start carried) :
    descriptorLoop? sec start limit visit carried =
      some (walk turn ((descriptors sec start limit).takeWhile fun d =>
        d + 2 + octet sec (d + 1) ≤ limit) carried) := by
  have walks : Walks 2 limit (fun d => octet sec (d + 1)) (descriptorTurn? sec limit visit)
      (fun d carried => if decide (d + 2 + octet sec (d + 1) ≤ limit) then turn d carried
        else (false, carried)) holds := by
    refine ⟨by decide, ?_, ?_⟩
    · intro d carried fits here
      have tag : octet? sec d = some (octet sec d) := octet?_eq (by omega)
      have length : octet? sec (d + 1) = some (octet sec (d + 1)) := octet?_eq (by omega)
      simp only [descriptorTurn?, tag, length, Option.bind_eq_bind, Option.bind_some, onward_fits]
      by_cases overruns : limit < d + 2 + octet sec (d + 1)
      · rw [if_pos overruns, if_neg (by simpa using overruns)]
        rfl
      · rw [if_neg overruns, if_pos (by simpa using overruns),
          visits (Nat.not_lt.mp overruns) here]
        rfl
    · intro d carried _ here goes
      by_cases whole : d + 2 + octet sec (d + 1) ≤ limit
      · rw [if_pos (decide_eq_true whole)] at goes ⊢
        exact keeps whole here goes
      · rw [if_neg (by simpa using whole)] at goes
        exact absurd goes Bool.false_ne_true
  exact (walks.scan here).trans (congrArg some (walk_takeWhile _ _ _ _))

theorem descriptorLoop?_eq {limit : Nat} (inside : limit ≤ sec.length)
    {visit : (tag length d : Nat) → α → Option (Bool × α)} (turn : Nat → α → Bool × α)
    (visits : ∀ {d : Nat} {carried : α}, d + 2 + octet sec (d + 1) ≤ limit →
      visit (octet sec d) (octet sec (d + 1)) d carried = some (turn d carried))
    (start : Nat) (carried : α) :
    descriptorLoop? sec start limit visit carried =
      some (walk turn ((descriptors sec start limit).takeWhile fun d =>
        d + 2 + octet sec (d + 1) ≤ limit) carried) :=
  @descriptorLoop?_holds _ _ _ inside _ turn (fun _ _ => True) (fun fits _ => visits fits)
    (fun _ _ _ => trivial) _ _ trivial

/-- What a descriptor loop does with the slices of its descriptors. -/
theorem descriptorSlices_loop? {limit : Nat} (inside : limit ≤ sec.length)
    {visit : (tag length d : Nat) → α → Option (Bool × α)} (read : α → List UInt8 → α)
    (visits : ∀ {d : Nat} {carried : α}, d + 2 + octet sec (d + 1) ≤ limit →
      visit (octet sec d) (octet sec (d + 1)) d carried =
        some (true, read carried (slice sec d (2 + octet sec (d + 1)))))
    (start : Nat) (carried : α) :
    descriptorLoop? sec start limit visit carried =
      some ((descriptorSlices sec start limit).foldl read carried) := by
  rw [descriptorLoop?_eq inside
    (fun d carried => (true, read carried (slice sec d (2 + octet sec (d + 1))))) visits,
    walk_foldl, descriptorSlices, List.foldl_map]

end Descriptors

/-- The teletext loop of a stream entry. -/
def teletextLoop? (sec : List UInt8) (pid : UInt16) (start limit : Nat) (teletext : UInt16) :
    Option UInt16 :=
  descriptorLoop? sec start limit
    (fun tag _ _ teletext => some (true, if tag = 0x56 ∨ tag = 0x46 then pid else teletext))
    teletext

theorem teletextLoop?_eq {pos : Nat} (inside : pos + 5 + be12 sec (pos + 3) ≤ sec.length)
    (unnamed : octet sec pos = 0x06) (pid teletext : UInt16) :
    teletextLoop? sec pid (pos + 5) (pos + 5 + be12 sec (pos + 3)) teletext =
      some (if isTeletext sec pos then pid else teletext) := by
  have folds (positions : List Nat) : positions.foldl (fun teletext d =>
      if octet sec d = 0x56 ∨ octet sec d = 0x46 then pid else teletext) teletext =
        if positions.any fun d => octet sec d == 0x56 || octet sec d == 0x46 then pid
        else teletext := by
    induction positions using List.reverseRecOn with
    | nil => rfl
    | append_singleton positions d ih =>
        rw [List.foldl_append, List.foldl_cons, List.foldl_nil, ih, List.any_append]
        by_cases here : octet sec d = 0x56 ∨ octet sec d = 0x46 <;> simp [here]
  rw [teletextLoop?, descriptorLoop?_eq inside (fun d teletext => (true,
    if octet sec d = 0x56 ∨ octet sec d = 0x46 then pid else teletext)) (fun _ => rfl), walk_foldl,
    folds, isTeletext, unnamed]
  simp only [BEq.rfl, Bool.true_and]

end Stream

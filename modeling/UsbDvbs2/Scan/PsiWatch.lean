import Mathlib.Data.List.Dedup
import Mathlib.Data.List.Nodup
import UsbDvbs2.Scan.ScanState

/-! # The watch over a capture

The probe ends a capture early once the tables that a scan needs have gone by. It
puts the PAT, the SDT and the NIT together, but of a PMT it only looks for the
start of a unit on the pid that the PAT lists.
-/

namespace Scan

open Bytes Mpeg Stream

/-! ## The numbered sections of a table -/

/-- `psi_sections`. -/
structure PsiSections where
  seenAny : Bool
  last : Nat
  mask : UInt32
  deriving DecidableEq

def PsiSections.zero : PsiSections := ⟨false, 0, 0⟩

/-- `psi_sections_note`. -/
def PsiSections.note (table : PsiSections) (number last : Nat) : PsiSections where
  seenAny := true
  last := last
  mask := if number < 32 then table.mask ||| 1 <<< UInt32.ofNat number else table.mask

/-- `psi_sections_complete`. -/
def PsiSections.complete (table : PsiSections) : Bool :=
  table.seenAny && (32 ≤ table.last ||
    (List.range (table.last + 1)).all fun number =>
      table.mask &&& 1 <<< UInt32.ofNat number != 0)

/-! ## The watch -/

/-- `psi_watch`: every PMT pid that the PAT lists, and whether a unit has started on it. -/
structure PsiWatch where
  wantNit : Bool
  pat : PsiSections
  sdt : PsiSections
  haveNit : Bool
  pmts : List (UInt16 × Bool)
  patAsm : Assembler
  sdtAsm : Assembler
  nitAsm : Assembler
  progressTick : UInt32
  deriving DecidableEq

def PsiWatch.start (wantNit : Bool) (started : UInt32) : PsiWatch where
  wantNit := wantNit
  pat := .zero
  sdt := .zero
  haveNit := false
  pmts := []
  patAsm := .empty
  sdtAsm := .empty
  nitAsm := .empty
  progressTick := started

def maxPmts : Nat := 64

/-- An entry of a PAT: its pid is listed once, while there is room. -/
def notePmt (sec : List UInt8) (pmts : List (UInt16 × Bool)) (pos : Nat) :
    List (UInt16 × Bool) :=
  let pmt := be13 sec (pos + 2)
  if be16 sec pos = 0 ∨ maxPmts ≤ pmts.length then pmts
  else if pmts.any (·.1 == pmt) then pmts
  else pmts ++ [(pmt, false)]

/-- `payload_unit_start_indicator`. -/
def unitStarts (packet : Packet) : Bool := octet packet.bytes 1 / 64 % 2 = 1

def PsiWatch.readPat (watch : PsiWatch) (now : UInt32) (sec : List UInt8) : PsiWatch :=
  if 12 ≤ sec.length ∧ octet sec 0 = 0x00 then
    { watch with
      pmts := (patEntries sec).foldl (notePmt sec) watch.pmts
      pat := watch.pat.note (octet sec 6) (octet sec 7)
      progressTick := now }
  else watch

def PsiWatch.readSdt (watch : PsiWatch) (now : UInt32) (sec : List UInt8) : PsiWatch :=
  if 12 ≤ sec.length ∧ octet sec 0 = 0x42 then
    let sdt := watch.sdt.note (octet sec 6) (octet sec 7)
    { watch with
      sdt := sdt
      progressTick := if sdt.mask = watch.sdt.mask then watch.progressTick else now }
  else watch

def PsiWatch.readNit (watch : PsiWatch) (sec : List UInt8) : PsiWatch :=
  if 16 ≤ sec.length ∧ octet sec 0 = 0x40 then { watch with haveNit := true } else watch

/-- A unit has started on a pid: the PMT there is taken for seen. -/
def PsiWatch.tickOff (watch : PsiWatch) (now : UInt32) (pid : UInt16) : PsiWatch :=
  if watch.pmts.any fun entry => entry.1 == pid && !entry.2 then
    { watch with
      pmts := watch.pmts.map fun entry => if entry.1 = pid then (pid, true) else entry
      progressTick := now }
  else watch

/-- `psi_watch_packet`, at a time. -/
def psiWatchPacket (watch : PsiWatch) (now : UInt32) (packet : Packet) : PsiWatch :=
  if packet.pid = 0x0000 then
    if watch.pat.complete then watch
    else
      let (asm, sec) := psiAssemble watch.patAsm packet
      let watch := { watch with patAsm := asm }
      sec.elim watch (watch.readPat now)
  else if packet.pid = 0x0011 then
    if watch.sdt.complete then watch
    else
      let (asm, sec) := psiAssemble watch.sdtAsm packet
      let watch := { watch with sdtAsm := asm }
      sec.elim watch (watch.readSdt now)
  else if packet.pid = 0x0010 then
    if watch.haveNit then watch
    else
      let (asm, sec) := psiAssemble watch.nitAsm packet
      let watch := { watch with nitAsm := asm }
      sec.elim watch watch.readNit
  else if watch.pat.seenAny && unitStarts packet then watch.tickOff now packet.pid
  else watch

/-- A PMT pid on which no unit has started. -/
def PsiWatch.missing (watch : PsiWatch) : Bool := watch.pmts.any fun entry => !entry.2

def idleMs : UInt32 := 1500

/-- `psi_watch_complete`, at a time. -/
def psiWatchComplete (watch : PsiWatch) (now : UInt32) : Bool :=
  if !watch.pat.complete || !watch.sdt.complete then false
  else if watch.wantNit && !watch.haveNit then false
  else if watch.pmts.isEmpty then false
  else if watch.missing then idleMs < now - watch.progressTick
  else true

/-! ## The capture -/

/-- The packets of a capture, each at its time. -/
abbrev Captured := List (UInt32 × Packet)

/-- The watch over a capture, and what a scan of the packets so far has come to. -/
structure Capture where
  watch : PsiWatch
  parser : ParserState
  sections : List (List UInt8)

def Capture.start (wantNit : Bool) (started : UInt32) : Capture :=
  ⟨.start wantNit started, .initial, []⟩

/-- The sections that a packet brings to the scan. -/
def Capture.fresh (capture : Capture) (packet : Packet) : List (List UInt8) :=
  (capture.parser.scanPacket packet).2

def Capture.take (capture : Capture) (event : UInt32 × Packet) : Capture where
  watch := psiWatchPacket capture.watch event.1 event.2
  parser := (capture.parser.scanPacket event.2).1
  sections := capture.sections ++ capture.fresh event.2

def Capture.takeAll (capture : Capture) (captured : Captured) : Capture :=
  captured.foldl Capture.take capture

/-- The sections are those that a scan of the packets parses. -/
theorem takeAll_sections (capture : Capture) (captured : Captured) :
    (capture.takeAll captured).sections =
      capture.sections ++ (capture.parser.scanPackets (captured.map (·.2))).2 := by
  induction captured generalizing capture with
  | nil => exact (List.append_nil _).symm
  | cons event captured ih =>
      have rest := ih (capture.take event)
      rw [Capture.takeAll, List.foldl_cons, ← Capture.takeAll, rest, List.map_cons,
        ParserState.scanPackets]
      exact List.append_assoc ..

/-- The programmes of a PAT section, each with the pid of its PMT. -/
def patProgrammes (sec : List UInt8) : List (UInt16 × UInt16) :=
  ((patEntries sec).filter (be16 sec · ≠ 0)).map fun pos => (be16 sec pos, be13 sec (pos + 2))

/-- The programmes that a section lists, if the scan takes it for a PAT. -/
def programmes (sec : List UInt8) : List (UInt16 × UInt16) :=
  if Intact sec ∧ 12 ≤ sec.length ∧ octet sec 0 = 0x00 then patProgrammes sec else []

/-- A PMT of the service is among the sections, whole. -/
def Found (sections : List (List UInt8)) (service : UInt16) : Prop :=
  ∃ sec ∈ sections, Intact sec ∧ isPmtOf sec service = true

instance (sections : List (List UInt8)) (service : UInt16) : Decidable (Found sections service) :=
  List.decidableBEx _ sections

/-- Once the watch has nothing to wait for and no PMT is missing, the PMT of every
programme listed has been captured. -/
def LosesNothing (wantNit : Bool) (started now : UInt32) (captured : Captured) : Prop :=
  let watch := ((Capture.start wantNit started).takeAll captured).watch
  let sections := (ParserState.initial.scanPackets (captured.map (·.2))).2
  psiWatchComplete watch now = true → watch.missing = false →
    ∀ programme ∈ sections.flatMap programmes, Found sections programme.1

instance (wantNit : Bool) (started now : UInt32) (captured : Captured) :
    Decidable (LosesNothing wantNit started now captured) :=
  @instDecidableForall _ _ _ (@instDecidableForall _ _ _ (List.decidableBAll _ _))

/-! ## Steps that keep the watch right -/

def PsiWatch.listed (watch : PsiWatch) : List UInt16 := watch.pmts.map (·.1)

/-- The pids that stand at positions of a PAT. -/
def pidsAt (sec : List UInt8) (positions : List Nat) : List UInt16 :=
  (positions.filter (be16 sec · ≠ 0)).map fun pos => be13 sec (pos + 2)

/-- There is room for a pid behind others that are noted before it. -/
def RoomFor (listed more : List UInt16) (pid : UInt16) : Prop :=
  ∃ count ∈ List.range more.length,
    more[count]? = some pid ∧ (listed ++ more.take count).dedup.length < maxPmts

/-- The packet gives the watch a PAT section in which the pid stands, with room for it. -/
def PsiWatch.TakesIn (watch : PsiWatch) (packet : Packet) (pid : UInt16) : Prop :=
  packet.pid = 0x0000 ∧ watch.pat.complete = false ∧
    ∃ sec ∈ (psiAssemble watch.patAsm packet).2.toList,
      (12 ≤ sec.length ∧ octet sec 0 = 0x00) ∧
        RoomFor watch.listed (pidsAt sec (patEntries sec)) pid

/-- The packet starts a unit where the watch looks for one. -/
def PsiWatch.looksAt (watch : PsiWatch) (packet : Packet) : Bool :=
  packet.pid != 0x0000 && packet.pid != 0x0011 && packet.pid != 0x0010 &&
    (watch.pat.seenAny && unitStarts packet)

/-- The packet starts a unit on a listed pid on which none has started. -/
def PsiWatch.TicksOff (watch : PsiWatch) (packet : Packet) (pid : UInt16) : Prop :=
  watch.looksAt packet = true ∧ packet.pid = pid ∧ (pid, false) ∈ watch.pmts

/-- A packet after which the watch may be believed. The programmes that it brings
are listed, or taken in with it; and where a unit starts on a PMT pid, or a
programme is brought to a pid on which one has started, the PMT of each programme
there has been captured, whole. -/
structure Capture.Honest (capture : Capture) (packet : Packet) : Prop where
  room : ∀ programme ∈ (capture.fresh packet).flatMap programmes,
    programme.2 ∈ capture.watch.listed ∨ capture.watch.TakesIn packet programme.2
  late : ∀ programme ∈ (capture.fresh packet).flatMap programmes,
    (programme.2, true) ∈ capture.watch.pmts →
      Found (capture.sections ++ capture.fresh packet) programme.1
  whole : ∀ programme ∈ (capture.sections ++ capture.fresh packet).flatMap programmes,
    capture.watch.TicksOff packet programme.2 →
      Found (capture.sections ++ capture.fresh packet) programme.1

/-- A capture of which every packet is honest. -/
def Capture.HonestAll : Capture → Captured → Prop
  | _, [] => True
  | capture, event :: captured =>
      capture.Honest event.2 ∧ (capture.take event).HonestAll captured

instance (listed more : List UInt16) (pid : UInt16) : Decidable (RoomFor listed more pid) :=
  List.decidableBEx _ _

instance (watch : PsiWatch) (packet : Packet) (pid : UInt16) :
    Decidable (watch.TakesIn packet pid) :=
  @instDecidableAnd _ _ _ (@instDecidableAnd _ _ _ (List.decidableBEx _ _))

instance (watch : PsiWatch) (packet : Packet) (pid : UInt16) :
    Decidable (watch.TicksOff packet pid) :=
  inferInstanceAs (Decidable (_ ∧ _ ∧ _))

instance (capture : Capture) (packet : Packet) : Decidable (capture.Honest packet) :=
  @decidable_of_iff _
    ((∀ programme ∈ (capture.fresh packet).flatMap programmes,
        programme.2 ∈ capture.watch.listed ∨ capture.watch.TakesIn packet programme.2) ∧
      (∀ programme ∈ (capture.fresh packet).flatMap programmes,
        (programme.2, true) ∈ capture.watch.pmts →
          Found (capture.sections ++ capture.fresh packet) programme.1) ∧
      ∀ programme ∈ (capture.sections ++ capture.fresh packet).flatMap programmes,
        capture.watch.TicksOff packet programme.2 →
          Found (capture.sections ++ capture.fresh packet) programme.1)
    ⟨fun ⟨room, late, whole⟩ => ⟨room, late, whole⟩,
      fun honest => ⟨honest.room, honest.late, honest.whole⟩⟩
    (@instDecidableAnd _ _ (List.decidableBAll _ _)
      (@instDecidableAnd _ _ (List.decidableBAll _ _) (List.decidableBAll _ _)))

instance Capture.decidableHonestAll : (capture : Capture) → (captured : Captured) →
    Decidable (capture.HonestAll captured)
  | _, [] => isTrue trivial
  | capture, event :: captured =>
      @instDecidableAnd _ _ (inferInstanceAs (Decidable (capture.Honest event.2)))
        (decidableHonestAll (capture.take event) captured)

/-! ## Pids noted while there is room -/

section Noted

variable {pids more : List UInt16} {pid : UInt16}

/-- A pid behind the others, unless it is among them or there is no room. -/
def addPid (pids : List UInt16) (pid : UInt16) : List UInt16 :=
  if maxPmts ≤ pids.length ∨ pid ∈ pids then pids else pids ++ [pid]

theorem addPid_distinct (distinct : pids.Nodup) (pid : UInt16) : (addPid pids pid).Nodup := by
  unfold addPid
  split
  · exact distinct
  · rename_i fresh
    refine List.nodup_append.2 ⟨distinct, by simp, ?_⟩
    rintro old listed new added rfl
    exact fresh (.inr (List.mem_singleton.1 added ▸ listed))

theorem addPids_distinct (distinct : pids.Nodup) (more : List UInt16) :
    (more.foldl addPid pids).Nodup := by
  induction more generalizing pids with
  | nil => exact distinct
  | cons pid more ih => exact ih (addPid_distinct distinct pid)

theorem length_dedup_congr {others : List UInt16} (same : ∀ pid, pid ∈ pids ↔ pid ∈ others) :
    pids.dedup.length = others.dedup.length :=
  ((List.perm_ext_iff_of_nodup (List.nodup_dedup _) (List.nodup_dedup _)).2 fun pid => by
    rw [List.mem_dedup, List.mem_dedup, same]).length_eq

theorem length_le_dedup (distinct : pids.Nodup) (more : List UInt16) :
    pids.length ≤ (pids ++ more).dedup.length :=
  distinct.length_le_of_subset fun _ mem => List.mem_dedup.2 (List.mem_append_left _ mem)

/-- There is room for the first of the pids, or for a later one behind it. -/
theorem roomFor_cons {first : UInt16} : RoomFor pids (first :: more) pid ↔
    first = pid ∧ pids.dedup.length < maxPmts ∨
      ∃ count ∈ List.range more.length, more[count]? = some pid ∧
        (pids ++ first :: more.take count).dedup.length < maxPmts := by
  unfold RoomFor
  rw [List.length_cons, List.range_succ_eq_map]
  simp

/-- What is noted is what there is room for. -/
theorem mem_addPids (distinct : pids.Nodup) :
    pid ∈ more.foldl addPid pids ↔ pid ∈ pids ∨ RoomFor pids more pid := by
  induction more generalizing pids with
  | nil => simp [RoomFor]
  | cons first more ih =>
      rw [List.foldl_cons, ih (addPid_distinct distinct first), roomFor_cons]
      by_cases known : first ∈ pids
      · have same (count : Nat) : (pids ++ first :: more.take count).dedup.length =
            (pids ++ more.take count).dedup.length :=
          length_dedup_congr fun pid => by
            simp only [List.mem_append, List.mem_cons]
            constructor
            · rintro (old | rfl | new)
              exacts [.inl old, .inl known, .inr new]
            · exact Or.imp id .inr
        rw [addPid, if_pos (.inr known)]
        simp only [same]
        constructor
        · exact Or.imp id .inr
        · rintro (old | ⟨rfl, -⟩ | later)
          exacts [.inl old, .inl known, .inr later]
      · by_cases full : maxPmts ≤ pids.length
        · have none (more : List UInt16) : ¬ (pids ++ more).dedup.length < maxPmts :=
            Nat.not_lt.2 (Nat.le_trans full (length_le_dedup distinct more))
          have nobody := none []
          rw [List.append_nil] at nobody
          rw [addPid, if_pos (.inl full)]
          simp [RoomFor, none, nobody]
        · have few : pids.dedup.length < maxPmts := by
            rw [List.dedup_eq_self.2 distinct]
            omega
          rw [addPid, if_neg (by simp [known, full]), RoomFor]
          simp only [List.append_assoc, List.singleton_append, List.mem_append,
            List.mem_singleton, few, and_true, or_assoc]
          rw [@eq_comm _ pid first]

end Noted

/-! ## What a PAT section does to the list -/

/-- A list to which entries have been added that are not ticked off. -/
structure Longer (pmts more : List (UInt16 × Bool)) : Prop where
  kept : ∀ entry ∈ pmts, entry ∈ more
  fresh : ∀ entry ∈ more, entry ∈ pmts ∨ entry.2 = false

theorem Longer.refl (pmts : List (UInt16 × Bool)) : Longer pmts pmts :=
  ⟨fun _ => id, fun _ => .inl⟩

theorem Longer.trans {pmts more most : List (UInt16 × Bool)} (first : Longer pmts more)
    (second : Longer more most) : Longer pmts most where
  kept := fun entry mem => second.kept entry (first.kept entry mem)
  fresh := fun entry mem => (second.fresh entry mem).elim (first.fresh entry) .inr

theorem notePmt_longer (sec : List UInt8) (pmts : List (UInt16 × Bool)) (pos : Nat) :
    Longer pmts (notePmt sec pmts pos) := by
  unfold notePmt
  simp only
  split
  · exact .refl pmts
  · split
    · exact .refl pmts
    · refine ⟨fun entry => List.mem_append_left _, fun entry mem => ?_⟩
      rcases List.mem_append.1 mem with old | new
      · exact .inl old
      · exact .inr (congrArg Prod.snd (List.mem_singleton.1 new))

theorem notePmts_longer (sec : List UInt8) (positions : List Nat) (pmts : List (UInt16 × Bool)) :
    Longer pmts (positions.foldl (notePmt sec) pmts) := by
  induction positions generalizing pmts with
  | nil => exact .refl pmts
  | cons pos positions ih => exact (notePmt_longer sec pmts pos).trans (ih _)

theorem notePmt_pids (sec : List UInt8) (pmts : List (UInt16 × Bool)) (pos : Nat) :
    (notePmt sec pmts pos).map (·.1) =
      if be16 sec pos = 0 then pmts.map (·.1)
      else addPid (pmts.map (·.1)) (be13 sec (pos + 2)) := by
  have known : pmts.any (·.1 == be13 sec (pos + 2)) = true ↔
      be13 sec (pos + 2) ∈ pmts.map (·.1) := by simp
  unfold notePmt addPid
  by_cases network : be16 sec pos = 0
  · simp [network]
  · simp only [network, false_or, if_false, List.length_map, known]
    by_cases full : maxPmts ≤ pmts.length
    · simp [full]
    · by_cases old : be13 sec (pos + 2) ∈ pmts.map (·.1)
      · simp only [full, old, if_false, if_true, or_true]
      · simp only [full, old, if_false, or_false, List.map_append, List.map_cons, List.map_nil]

/-- The pids of a PAT section are noted one after the other. -/
theorem notePmts_pids (sec : List UInt8) (positions : List Nat) (pmts : List (UInt16 × Bool)) :
    (positions.foldl (notePmt sec) pmts).map (·.1) =
      (pidsAt sec positions).foldl addPid (pmts.map (·.1)) := by
  induction positions generalizing pmts with
  | nil => rfl
  | cons pos positions ih =>
      rw [List.foldl_cons, ih, notePmt_pids]
      by_cases network : be16 sec pos = 0 <;> simp [pidsAt, network]

/-! ## What a packet does to the list -/

/-- The list after a packet that ticks nothing off. -/
structure PsiWatch.Gains (watch : PsiWatch) (packet : Packet) (more : List (UInt16 × Bool)) :
    Prop where
  longer : Longer watch.pmts more
  distinct : watch.listed.Nodup → (more.map (·.1)).Nodup
  listed : watch.listed.Nodup → ∀ pid,
    pid ∈ more.map (·.1) ↔ pid ∈ watch.listed ∨ watch.TakesIn packet pid

theorem gains_nothing {watch : PsiWatch} {packet : Packet}
    (nothing : ∀ pid, ¬ watch.TakesIn packet pid) : watch.Gains packet watch.pmts where
  longer := .refl _
  distinct := id
  listed := fun _ pid => (or_iff_left (nothing pid)).symm

/-- A list in which a pid is ticked off. -/
def ticked (pmts : List (UInt16 × Bool)) (pid : UInt16) : List (UInt16 × Bool) :=
  pmts.map fun entry => if entry.1 = pid then (pid, true) else entry

theorem ticked_listed (pmts : List (UInt16 × Bool)) (pid : UInt16) :
    (ticked pmts pid).map (·.1) = pmts.map (·.1) := by
  rw [ticked, List.map_map]
  refine List.map_congr_left fun entry _ => ?_
  by_cases here : entry.1 = pid <;> simp [here]

/-- What is ticked off has been, or is now. -/
theorem mem_ticked {pmts : List (UInt16 × Bool)} {pid other : UInt16} :
    (other, true) ∈ ticked pmts pid ↔
      (other, true) ∈ pmts ∨ pid = other ∧ (other, false) ∈ pmts := by
  constructor
  · intro mem
    obtain ⟨⟨listed, seen⟩, present, same⟩ := List.mem_map.1 mem
    by_cases here : listed = pid
    · rw [if_pos here, Prod.mk.injEq] at same
      obtain ⟨rfl, -⟩ := same
      subst here
      cases seen with
      | true => exact .inl present
      | false => exact .inr ⟨rfl, present⟩
    · rw [if_neg here] at same
      exact .inl (same ▸ present)
  · rintro (before | ⟨rfl, before⟩)
    · refine List.mem_map.2 ⟨_, before, ?_⟩
      by_cases here : other = pid <;> simp [here]
    · exact List.mem_map.2 ⟨_, before, if_pos rfl⟩

@[simp] theorem readSdt_pmts (watch : PsiWatch) (now : UInt32) (sec : List UInt8) :
    (watch.readSdt now sec).pmts = watch.pmts := by
  unfold PsiWatch.readSdt
  split <;> rfl

@[simp] theorem readNit_pmts (watch : PsiWatch) (sec : List UInt8) :
    (watch.readNit sec).pmts = watch.pmts := by
  unfold PsiWatch.readNit
  split <;> rfl

theorem tickOff_pmts (watch : PsiWatch) (now : UInt32) (pid : UInt16) :
    (watch.tickOff now pid).pmts = ticked watch.pmts pid := by
  unfold PsiWatch.tickOff
  by_cases some : (watch.pmts.any fun entry => entry.1 == pid && !entry.2) = true
  · rw [if_pos some]
    rfl
  · rw [if_neg some, ticked]
    refine ((List.map_congr_left fun entry mem => ?_).trans (List.map_id _)).symm
    by_cases here : entry.1 = pid
    · have seen : entry.2 = true := by
        by_contra unseen
        exact some (List.any_eq_true.2 ⟨entry, mem, by simp [here, unseen]⟩)
      rw [if_pos here, ← here, ← seen]
      rfl
    · exact if_neg here

/-- A packet of the PAT. -/
theorem gains_pat {watch : PsiWatch} {packet : Packet} (pat : packet.pid = 0x0000) (now : UInt32) :
    watch.Gains packet (psiWatchPacket watch now packet).pmts := by
  unfold psiWatchPacket
  rw [if_pos pat]
  by_cases complete : watch.pat.complete = true
  · rw [if_pos complete]
    exact gains_nothing fun pid takes => nomatch complete.symm.trans takes.2.1
  · rw [if_neg complete]
    cases hands : psiAssemble watch.patAsm packet with
    | mk asm sec =>
        cases sec with
        | none =>
            refine gains_nothing ?_
            rintro pid ⟨-, -, sec, mem, -⟩
            rw [hands] at mem
            exact nomatch mem
        | some sec =>
            simp only [Option.elim_some, PsiWatch.readPat]
            by_cases reads : 12 ≤ sec.length ∧ octet sec 0 = 0x00
            · rw [if_pos reads]
              refine ⟨notePmts_longer sec _ _, fun distinct => ?_, fun distinct pid => ?_⟩
              · rw [notePmts_pids]
                exact addPids_distinct distinct _
              · rw [notePmts_pids]
                refine (mem_addPids distinct).trans (or_congr Iff.rfl ⟨fun room => ?_, ?_⟩)
                · exact ⟨pat, Bool.eq_false_iff.2 complete, sec, by simp [hands], reads, room⟩
                · rintro ⟨-, -, other, mem, -, room⟩
                  rw [hands, Option.toList_some, List.mem_singleton] at mem
                  exact mem ▸ room
            · rw [if_neg reads]
              refine gains_nothing ?_
              rintro pid ⟨-, -, other, mem, table, -⟩
              rw [hands, Option.toList_some, List.mem_singleton] at mem
              exact reads (mem ▸ table)

/-- A packet ticks its pid off if the watch looks at it, and else adds to the list. -/
theorem ticks_or_gains (watch : PsiWatch) (now : UInt32) (packet : Packet) :
    if watch.looksAt packet then
      (psiWatchPacket watch now packet).pmts = ticked watch.pmts packet.pid
    else watch.Gains packet (psiWatchPacket watch now packet).pmts := by
  by_cases pat : packet.pid = 0x0000
  · rw [if_neg (by simp [PsiWatch.looksAt, pat])]
    exact gains_pat pat now
  have same {next : PsiWatch} (kept : next.pmts = watch.pmts) : watch.Gains packet next.pmts :=
    kept ▸ gains_nothing fun pid takes => pat takes.1
  unfold psiWatchPacket
  rw [if_neg pat]
  by_cases sdt : packet.pid = 0x0011
  · rw [if_pos sdt, if_neg (by simp [PsiWatch.looksAt, sdt])]
    split
    · exact same rfl
    · obtain ⟨asm, sec⟩ := psiAssemble watch.sdtAsm packet
      cases sec with
      | none => exact same rfl
      | some sec => exact same (readSdt_pmts _ now sec)
  · rw [if_neg sdt]
    by_cases nit : packet.pid = 0x0010
    · rw [if_pos nit, if_neg (by simp [PsiWatch.looksAt, nit])]
      split
      · exact same rfl
      · obtain ⟨asm, sec⟩ := psiAssemble watch.nitAsm packet
        cases sec with
        | none => exact same rfl
        | some sec => exact same (readNit_pmts _ sec)
    · have looks : watch.looksAt packet = (watch.pat.seenAny && unitStarts packet) := by
        simp [PsiWatch.looksAt, pat, sdt, nit]
      rw [if_neg nit, looks]
      by_cases starts : (watch.pat.seenAny && unitStarts packet) = true
      · rw [if_pos starts, if_pos starts]
        exact tickOff_pmts watch now packet.pid
      · rw [if_neg starts, if_neg starts]
        exact same rfl

/-! ## Honest captures -/

/-- Every programme brought so far stands in the list; where a unit has started on its
pid, its PMT has been captured. -/
structure Capture.Sound (capture : Capture) : Prop where
  distinct : capture.watch.listed.Nodup
  stands : ∀ programme ∈ capture.sections.flatMap programmes,
    programme.2 ∈ capture.watch.listed
  ticked : ∀ programme ∈ capture.sections.flatMap programmes,
    (programme.2, true) ∈ capture.watch.pmts → Found capture.sections programme.1

theorem Found.more {sections : List (List UInt8)} {service : UInt16}
    (found : Found sections service) (more : List (List UInt8)) :
    Found (sections ++ more) service := by
  obtain ⟨sec, mem, whole⟩ := found
  exact ⟨sec, List.mem_append_left _ mem, whole⟩

section Step

variable {capture : Capture} {packet : Packet} {programme : UInt16 × UInt16}

/-- What the list has after a packet. -/
theorem take_listed (distinct : capture.watch.listed.Nodup) (now : UInt32) (pid : UInt16) :
    pid ∈ (capture.take (now, packet)).watch.listed ↔
      pid ∈ capture.watch.listed ∨ capture.watch.TakesIn packet pid := by
  have step := ticks_or_gains capture.watch now packet
  by_cases looks : capture.watch.looksAt packet = true
  · rw [if_pos looks] at step
    have apart : ¬ capture.watch.TakesIn packet pid := fun takes => by
      simp [PsiWatch.looksAt, takes.1] at looks
    have same : (capture.take (now, packet)).watch.listed = capture.watch.listed := by
      rw [PsiWatch.listed, Capture.take, step, ticked_listed]
      rfl
    rw [same, or_iff_left apart]
  · rw [if_neg looks] at step
    exact step.listed distinct pid

theorem take_distinct (distinct : capture.watch.listed.Nodup) (now : UInt32) :
    (capture.take (now, packet)).watch.listed.Nodup := by
  have step := ticks_or_gains capture.watch now packet
  by_cases looks : capture.watch.looksAt packet = true
  · rw [if_pos looks] at step
    rw [PsiWatch.listed, Capture.take, step, ticked_listed]
    exact distinct
  · rw [if_neg looks] at step
    exact step.distinct distinct

/-- What is ticked off after a packet. -/
theorem take_ticked (now : UInt32) (pid : UInt16) :
    (pid, true) ∈ (capture.take (now, packet)).watch.pmts ↔
      (pid, true) ∈ capture.watch.pmts ∨ capture.watch.TicksOff packet pid := by
  have step := ticks_or_gains capture.watch now packet
  by_cases looks : capture.watch.looksAt packet = true
  · rw [if_pos looks] at step
    rw [Capture.take, step, mem_ticked, PsiWatch.TicksOff, looks]
    simp
  · rw [if_neg looks] at step
    rw [or_iff_left fun ticks => looks ticks.1]
    exact ⟨fun after => (step.longer.fresh _ after).resolve_right Bool.noConfusion,
      step.longer.kept _⟩

/-- A programme was brought before the packet or with it. -/
theorem mem_brought :
    programme ∈ (capture.sections ++ capture.fresh packet).flatMap programmes ↔
      programme ∈ capture.sections.flatMap programmes ∨
        programme ∈ (capture.fresh packet).flatMap programmes := by
  rw [List.flatMap_append, List.mem_append]

/-- The honest packets are those that keep the list and the ticks right. -/
theorem take_sound_iff (sound : capture.Sound) (now : UInt32) :
    (capture.take (now, packet)).Sound ↔ capture.Honest packet := by
  constructor
  · intro after
    refine ⟨fun programme new => ?_, fun programme new before => ?_,
      fun programme brought ticks => ?_⟩
    · exact (take_listed sound.distinct now programme.2).1
        (after.stands programme (mem_brought.2 (.inr new)))
    · exact after.ticked programme (mem_brought.2 (.inr new))
        ((take_ticked now programme.2).2 (.inl before))
    · exact after.ticked programme brought ((take_ticked now programme.2).2 (.inr ticks))
  · intro honest
    refine ⟨take_distinct sound.distinct now, fun programme brought => ?_,
      fun programme brought after => ?_⟩
    · exact (take_listed sound.distinct now programme.2).2
        ((mem_brought.1 brought).elim (fun old => .inl (sound.stands programme old))
          fun new => honest.room programme new)
    · rcases (take_ticked now programme.2).1 after with before | ticks
      · exact (mem_brought.1 brought).elim
          (fun old => (sound.ticked programme old before).more _)
          fun new => honest.late programme new before
      · exact honest.whole programme brought ticks

end Step

theorem start_sound (wantNit : Bool) (started : UInt32) : (Capture.start wantNit started).Sound :=
  ⟨List.nodup_nil, fun _ mem => (nomatch mem), fun _ mem => nomatch mem⟩

/-- A capture stays right as long as its packets are honest, and no longer. -/
theorem honestAll_iff {capture : Capture} (sound : capture.Sound) (captured : Captured) :
    capture.HonestAll captured ↔
      ∀ before, before <+: captured → (capture.takeAll before).Sound := by
  induction captured generalizing capture with
  | nil =>
      refine ⟨fun _ before none => ?_, fun _ => trivial⟩
      rw [List.prefix_nil.1 none]
      exact sound
  | cons event captured ih =>
      rw [Capture.HonestAll]
      constructor
      · rintro ⟨honest, others⟩ before within
        cases before with
        | nil => exact sound
        | cons first before =>
            obtain ⟨rfl, rest⟩ := List.cons_prefix_cons.1 within
            exact (ih ((take_sound_iff sound first.1).2 honest)).1 others before rest
      · intro every
        have next : (capture.take event).Sound :=
          every [event] (List.cons_prefix_cons.2 ⟨rfl, List.nil_prefix⟩)
        refine ⟨(take_sound_iff sound event.1).1 next, (ih next).2 fun before within => ?_⟩
        exact every (event :: before) (List.cons_prefix_cons.2 ⟨rfl, within⟩)

/-- A capture of honest packets that ends early loses no programme. -/
theorem losesNothing_of_honest {wantNit : Bool} {started : UInt32} {captured : Captured}
    (honest : (Capture.start wantNit started).HonestAll captured) (now : UInt32) :
    LosesNothing wantNit started now captured := by
  intro _ present programme brought
  have sound := (honestAll_iff (start_sound wantNit started) captured).1 honest captured
    (List.prefix_refl captured)
  have same := (takeAll_sections (Capture.start wantNit started) captured).trans
    (List.nil_append _)
  obtain ⟨⟨pid, seen⟩, mem, rfl⟩ := List.mem_map.1 (sound.stands programme (same ▸ brought))
  have ticked : seen = true := by
    have every := List.any_eq_false.1 present _ mem
    simpa using every
  exact same ▸ sound.ticked programme (same ▸ brought) (ticked ▸ mem)

/-- A PMT that lies in one packet is captured with the packet in which it starts. -/
theorem found_of_whole {capture : Capture} {packet : Packet} {ctx : Context} {tail : List UInt8}
    {whole : List (List UInt8)} {stuffing : Nat} {service : UInt16}
    (known : capture.parser.context? packet.pid = some ctx)
    (sync : octet packet.bytes 0 = 0x47)
    (carries : packet.payload? = some (Piece.closed tail whole stuffing).payload)
    (points : tail.length < 256) (valid : ∀ sec ∈ whole, IsSection maxSection sec)
    (pmt : ∃ sec ∈ whole, Intact sec ∧ isPmtOf sec service = true) :
    Found (capture.sections ++ capture.fresh packet) service := by
  obtain ⟨sec, mem, intact, names⟩ := pmt
  have reached : reaches packet.pid packet = true := by
    rw [reaches, sync]
    simp
  have drained := drain_flatten valid (.replicate stuffing 0xff)
  rw [drain_stuffing] at drained
  have handed : capture.fresh packet = stale ctx tail ++ (whole ++ []) := by
    rw [Capture.fresh, ParserState.scanPacket, known]
    simp only [scanPacket, reached, if_true, carries, Piece.payload,
      processPayload_pointed points, drained]
  refine ⟨sec, List.mem_append_right _ ?_, intact, names⟩
  rw [handed, List.append_nil]
  exact List.mem_append_right _ mem

/-! ## Two captures -/

/-- A packet in which a unit starts, with its pid in two bytes. -/
def unitPacket (high low : UInt8) (unit : List UInt8) : Packet where
  bytes := [0x47, 0x40 ||| high, low, 0x10, 0x00] ++ (unit ++ .replicate 183 0xff).take 183
  size := by
    rw [List.length_append, List.length_take, List.length_append, List.length_replicate,
      Nat.min_eq_left (Nat.le_add_left ..)]
    rfl

def onePatBody : List UInt8 :=
  [0x00, 0xb0, 0x0d, 0x00, 0x01, 0xc1, 0x00, 0x00, 0x00, 0x01, 0xe1, 0x00]

/-- A PAT of one programme, whose PMT is on pid 0x100. -/
def onePat : List UInt8 := onePatBody ++ crcBytes (crc32 onePatBody)

/-- The first packets of a capture, with the tables whole and a PMT begun on pid 0x100. -/
def beginning (pmt : List UInt8) : Captured :=
  [(0, unitPacket 0x00 0x00 onePat), (0, unitPacket 0x00 0x11 freeSdt),
  (0, unitPacket 0x1f 0xff []), (0, unitPacket 0x1f 0xff []), (0, unitPacket 0x01 0x00 pmt)]

/-- With its PMT in one packet the programme is found. -/
theorem losesNothing_of_honest_beginning :
    LosesNothing false 0 0 (beginning scrambledPmt.bytes) ∧
      psiWatchComplete ((Capture.start false 0).takeAll (beginning scrambledPmt.bytes)).watch 0 =
        true :=
  ⟨losesNothing_of_honest (by decide +kernel) 0, by decide +kernel⟩

/-- A PMT of 38 streams, which takes two packets. -/
def longPmt : List UInt8 :=
  [0x02, 0xb0, 0xcb, 0x00, 0x01, 0xc1, 0x00, 0x00, 0xe1, 0x01, 0xf0, 0x00] ++
    (List.replicate 38 [0x06, 0xe1, 0x02, 0xf0, 0x00]).flatten

/-- The capture ends behind the first packet of the PMT. -/
theorem half_pmt_ends_capture : ¬ LosesNothing false 0 0 (beginning longPmt) := by
  decide +kernel

end Scan

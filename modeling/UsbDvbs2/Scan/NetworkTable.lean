import Mathlib.Data.List.Induction
import Mathlib.Data.List.Nodup
import UsbDvbs2.Scan.PmtParse

/-! # The transponders of a network

`dtv_ts_parse_nit` adds the carriers of a network table to a bounded list without
repetitions, and takes the name of the network once. A table that repeats adds nothing.
-/

namespace Scan

open Bytes Stream

/-! ## The parser -/

/-- `dtv_ts_network_tp`. -/
structure NetworkTp where
  frequencyMhz : Nat
  symbolRateKsps : Nat
  polarization : Char
  orbitalTenths : Nat
  east : Nat
  transportStreamId : UInt16
  deriving DecidableEq

/-- An entry that is cleared, but for its transport stream. -/
def NetworkTp.zero (transportStreamId : UInt16) : NetworkTp where
  frequencyMhz := 0
  symbolRateKsps := 0
  polarization := Char.ofNat 0
  orbitalTenths := 0
  east := 0
  transportStreamId := transportStreamId

/-- A carrier is known by its frequency and polarization. -/
def NetworkTp.carrier (tp : NetworkTp) : Nat × Char := (tp.frequencyMhz, tp.polarization)

/-- `DTV_TS_MAX_NETWORK_TPS`. -/
def maxNetworkTps : Nat := 128

/-- `DTV_TS_NAME_SIZE`. -/
abbrev networkNameSize : Nat := 128

abbrev NetworkName : Type := Vector UInt8 networkNameSize

/-- The part of `dtv_ts_scan_result` that a network table fills. -/
structure Network where
  tps : List NetworkTp
  name : NetworkName
  deriving DecidableEq

def Network.cleared : Network := { tps := [], name := .replicate _ 0 }

/-- `bcd_value`: a nibble that is no digit counts as zero. -/
def bcdValue (sec : List UInt8) (start nibbles : Nat) : Nat :=
  (List.range nibbles).foldl (fun value i =>
    let digit :=
      if i % 2 = 1 then octet sec (start + i / 2) % 16 else octet sec (start + i / 2) / 16
    value * 10 + if digit > 9 then 0 else digit) 0

/-- `parse_satellite_descriptor`; a descriptor that is too short leaves the entry as it is. -/
def parseSatelliteDescriptor (sec : List UInt8) (start length : Nat) (out : NetworkTp) :
    NetworkTp :=
  if length < 11 then out
  else
    { out with
      frequencyMhz := bcdValue sec start 8 / 100
      orbitalTenths := bcdValue sec (start + 4) 4
      east := octet sec (start + 6) / 128 % 2
      polarization := if octet sec (start + 6) / 32 % 4 = 0 then 'H' else 'V'
      symbolRateKsps := bcdValue sec (start + 7) 7 / 10 }

/-- The positions of a descriptor loop, up to the first that overruns it. -/
def wholeDescriptors (sec : List UInt8) (start limit : Nat) : List Nat :=
  (descriptors sec start limit).takeWhile fun pos => pos + 2 + octet sec (pos + 1) ≤ limit

/-- How many bytes of a name are copied. -/
def nameCopy (sec : List UInt8) (pos : Nat) : Nat :=
  if octet sec (pos + 1) < networkNameSize - 1 then octet sec (pos + 1) else networkNameSize - 1

/-- The bytes of a name, and a zero behind them. -/
def copyName (sec : List UInt8) (name : NetworkName) (pos : Nat) : NetworkName :=
  .ofFn fun i =>
    if i < nameCopy sec pos then sec.getD (pos + 2 + i) 0
    else if i = nameCopy sec pos then 0
    else name[i]

/-- A name that is not empty. -/
def isName (sec : List UInt8) (pos : Nat) : Prop :=
  octet sec pos = 0x40 ∧ octet sec (pos + 1) ≠ 0

instance (sec : List UInt8) (pos : Nat) : Decidable (isName sec pos) :=
  inferInstanceAs (Decidable (_ ∧ _))

/-- A descriptor of the network; its name is copied unless there is one. -/
def readNetworkName (sec : List UInt8) (name : NetworkName) (pos : Nat) : NetworkName :=
  if isName sec pos ∧ name[0] = 0 then copyName sec name pos else name

/-- The descriptors of a transport stream; the loop is left at a carrier without frequency or
symbol rate. -/
def readTransport (sec : List UInt8) (transportStreamId : UInt16) :
    List Nat → List NetworkTp → List NetworkTp
  | [], tps => tps
  | pos :: later, tps =>
      if octet sec pos = 0x43 ∧ tps.length < maxNetworkTps then
        let entry := parseSatelliteDescriptor sec (pos + 2) (octet sec (pos + 1))
          (.zero transportStreamId)
        if entry.frequencyMhz = 0 ∨ entry.symbolRateKsps = 0 then tps
        else if tps.any (·.carrier = entry.carrier) then
          readTransport sec transportStreamId later tps
        else readTransport sec transportStreamId later (tps ++ [entry])
      else readTransport sec transportStreamId later tps

/-- Where the transport stream loop begins and ends. -/
def transportStart (sec : List UInt8) : Nat := 10 + be12 sec 8 + 2

def transportEnd (sec : List UInt8) : Nat :=
  min (transportStart sec + be12 sec (10 + be12 sec 8)) (sec.length - 4)

/-- Its positions, up to the first that overruns it. -/
def transportEntries (sec : List UInt8) : List Nat :=
  (entries 6 (transportEnd sec) (fun pos => be12 sec (pos + 4)) (transportStart sec)).takeWhile
    fun pos => pos + 6 + be12 sec (pos + 4) ≤ transportEnd sec

def readTransports (sec : List UInt8) (positions : List Nat) (tps : List NetworkTp) :
    List NetworkTp :=
  positions.foldl (fun tps pos => readTransport sec (be16 sec pos)
    (wholeDescriptors sec (pos + 6) (pos + 6 + be12 sec (pos + 4))) tps) tps

/-- `dtv_ts_parse_nit`: what it returns, and the result. -/
def dtvTsParseNit (sec : List UInt8) (result : Network) : Int × Network :=
  if sec.length < 16 then (-1, result)
  else if octet sec 0 ≠ 0x40 then (-1, result)
  else if sec.length ≠ 3 + be12 sec 1 then (-1, result)
  else if ¬ CrcValid sec then (-1, result)
  else if 10 + be12 sec 8 + 2 > sec.length - 4 then (-1, result)
  else
    (0,
      { name := (wholeDescriptors sec 10 (10 + be12 sec 8)).foldl (readNetworkName sec) result.name
        tps := readTransports sec (transportEntries sec) result.tps })

/-- The results that sections lead to from a cleared one. -/
def networkOf (sections : List (List UInt8)) : Network :=
  sections.foldl (fun result sec => (dtvTsParseNit sec result).2) .cleared

/-! ## The list grows at its end -/

section Transports

variable {sec : List UInt8} {transportStreamId : UInt16}

theorem readTransport_grows (positions : List Nat) (tps : List NetworkTp) :
    tps <+: readTransport sec transportStreamId positions tps := by
  induction positions generalizing tps with
  | nil => exact List.prefix_rfl
  | cons pos later ih =>
      unfold readTransport
      dsimp only
      split
      · split
        · exact List.prefix_rfl
        · split
          · exact ih tps
          · exact (List.prefix_append ..).trans (ih _)
      · exact ih tps

theorem readTransports_grows (positions : List Nat) (tps : List NetworkTp) :
    tps <+: readTransports sec positions tps := by
  induction positions generalizing tps with
  | nil => exact List.prefix_rfl
  | cons pos later ih => exact (readTransport_grows _ tps).trans (ih _)

/-- The list is short enough, has no carrier that cannot be tuned, and none twice. -/
structure Listed (tps : List NetworkTp) : Prop where
  bounded : tps.length ≤ maxNetworkTps
  tunable : ∀ tp ∈ tps, tp.frequencyMhz ≠ 0 ∧ tp.symbolRateKsps ≠ 0
  distinct : (tps.map NetworkTp.carrier).Nodup

theorem Listed.add {tps : List NetworkTp} {entry : NetworkTp} (listed : Listed tps)
    (room : tps.length < maxNetworkTps)
    (tunable : ¬ (entry.frequencyMhz = 0 ∨ entry.symbolRateKsps = 0))
    (unknown : ¬ tps.any (·.carrier = entry.carrier)) : Listed (tps ++ [entry]) where
  bounded := by
    rw [List.length_append, List.length_singleton]
    exact room
  tunable tp there := by
    rcases List.mem_append.mp there with old | new
    · exact listed.tunable tp old
    · rw [List.mem_singleton.mp new]
      exact not_or.mp tunable
  distinct := by
    rw [List.map_append, List.map_singleton, List.nodup_append]
    refine ⟨listed.distinct, List.nodup_singleton _, fun carrier known other same => ?_⟩
    obtain ⟨tp, there, rfl⟩ := List.mem_map.mp known
    rw [List.mem_singleton.mp same]
    intro twice
    exact unknown (List.any_eq_true.mpr ⟨tp, there, decide_eq_true twice⟩)

theorem Listed.readTransport {tps : List NetworkTp} (listed : Listed tps)
    (positions : List Nat) : Listed (readTransport sec transportStreamId positions tps) := by
  induction positions generalizing tps with
  | nil => exact listed
  | cons pos later ih =>
      unfold Scan.readTransport
      dsimp only
      split
      · rename_i found
        split
        · exact listed
        · rename_i tunable
          split
          · exact ih listed
          · rename_i unknown
            exact ih (listed.add found.2 tunable unknown)
      · exact ih listed

theorem Listed.readTransports {tps : List NetworkTp} (listed : Listed tps)
    (positions : List Nat) : Listed (readTransports sec positions tps) := by
  induction positions generalizing tps with
  | nil => exact listed
  | cons pos later ih => exact ih (listed.readTransport _)

/-! ## The same carriers again -/

/-- A full list is not touched. -/
theorem readTransport_full {tps : List NetworkTp} (full : ¬ tps.length < maxNetworkTps)
    (positions : List Nat) : Scan.readTransport sec transportStreamId positions tps = tps := by
  induction positions with
  | nil => rfl
  | cons pos later ih => rw [Scan.readTransport, if_neg fun room => full room.2, ih]

theorem any_grown {tps more : List NetworkTp} (grown : tps <+: more)
    {carrier : Nat × Char} (known : tps.any (·.carrier = carrier) = true) :
    more.any (·.carrier = carrier) = true := by
  obtain ⟨tp, there, same⟩ := List.any_eq_true.mp known
  exact List.any_eq_true.mpr ⟨tp, grown.subset there, same⟩

/-- A list that has grown out of what these descriptors left is not changed by them. -/
theorem readTransport_again {tps later : List NetworkTp} {positions : List Nat}
    (grown : Scan.readTransport sec transportStreamId positions tps <+: later) :
    Scan.readTransport sec transportStreamId positions later = later := by
  by_cases full : later.length < maxNetworkTps
  · induction positions generalizing tps with
    | nil => rfl
    | cons pos positions ih =>
        -- while the list had room the loop took the same way
        have before := (readTransport_grows (pos :: positions) tps).trans grown
        have room : tps.length < maxNetworkTps := Nat.lt_of_le_of_lt before.length_le full
        unfold Scan.readTransport at grown ⊢
        dsimp only at grown ⊢
        by_cases satellite : octet sec pos = 0x43
        · rw [if_pos ⟨satellite, room⟩] at grown
          rw [if_pos ⟨satellite, full⟩]
          split at grown
          · exact if_pos ‹_›
          · rw [if_neg ‹_›]
            split at grown
            · rename_i known
              rw [if_pos (any_grown before known)]
              exact ih grown
            · have added := (readTransport_grows positions _).trans grown
              rw [if_pos (any_grown added (by simp))]
              exact ih grown
        · rw [if_neg fun found => satellite found.1] at grown ⊢
          exact ih grown
  · exact readTransport_full full positions

theorem readTransports_again {tps later : List NetworkTp} {positions : List Nat}
    (grown : Scan.readTransports sec positions tps <+: later) :
    Scan.readTransports sec positions later = later := by
  induction positions generalizing tps with
  | nil => rfl
  | cons pos positions ih =>
      have first := (readTransports_grows positions _).trans grown
      rw [Scan.readTransports, List.foldl_cons, readTransport_again first]
      exact ih grown

end Transports

/-! ## The name again -/

section Name

variable {sec : List UInt8}

theorem getElem_copyName (name : NetworkName) (pos : Nat) {i : Nat} (inside : i < networkNameSize) :
    (copyName sec name pos)[i] =
      if i < nameCopy sec pos then sec.getD (pos + 2 + i) 0
      else if i = nameCopy sec pos then 0
      else name[i] := by
  simp only [copyName, Vector.getElem_ofFn]
  rfl

/-- A name that begins with a character is kept. -/
theorem foldl_named {name : NetworkName} (named : name[0] ≠ 0) (positions : List Nat) :
    positions.foldl (readNetworkName sec) name = name := by
  induction positions with
  | nil => rfl
  | cons pos later ih =>
      rw [List.foldl_cons, readNetworkName, if_neg fun copied => named copied.2, ih]

theorem copyName_first (name : NetworkName) {pos : Nat} (copied : isName sec pos) :
    (copyName sec name pos)[0] = sec.getD (pos + 2) 0 := by
  have long : 0 < nameCopy sec pos := by
    unfold nameCopy
    split
    · exact Nat.pos_of_ne_zero copied.2
    · decide
  rw [getElem_copyName name pos (by decide), if_pos long, Nat.add_zero]

/-- Where the name is still empty in the end, it was empty all the time. -/
theorem empty_of_foldl {name : NetworkName} {positions : List Nat}
    (empty : (positions.foldl (readNetworkName sec) name)[0] = 0) :
    name[0] = 0 ∧ ∀ pos ∈ positions, isName sec pos → sec.getD (pos + 2) 0 = 0 := by
  induction positions generalizing name with
  | nil => exact ⟨empty, nofun⟩
  | cons pos later ih =>
      obtain ⟨next, rest⟩ := ih empty
      by_cases before : name[0] = 0
      · refine ⟨before, fun other there copied => ?_⟩
        rcases List.mem_cons.mp there with rfl | behind
        · rw [readNetworkName, if_pos ⟨copied, before⟩, copyName_first name copied] at next
          exact next
        · exact rest other behind copied
      · rw [readNetworkName, if_neg fun copied => before copied.2] at next
        exact absurd next before

/-- What the last of some names that reach a place leaves there. -/
def lastWrite (sec : List UInt8) (i : Nat) : List Nat → Option UInt8
  | [] => none
  | pos :: later =>
      (lastWrite sec i later).or
        (if isName sec pos ∧ i ≤ nameCopy sec pos then
          some (if i < nameCopy sec pos then sec.getD (pos + 2 + i) 0 else 0)
        else none)

theorem getElem_foldl_empty {name : NetworkName} {positions : List Nat} (empty : name[0] = 0)
    (silent : ∀ pos ∈ positions, isName sec pos → sec.getD (pos + 2) 0 = 0) {i : Nat}
    (inside : i < networkNameSize) :
    (positions.foldl (readNetworkName sec) name)[i] =
      (lastWrite sec i positions).getD name[i] := by
  induction positions generalizing name with
  | nil => rfl
  | cons pos later ih =>
      have behind := fun other there => silent other (List.mem_cons_of_mem _ there)
      by_cases copied : isName sec pos
      · have next : (copyName sec name pos)[0] = 0 :=
          (copyName_first name copied).trans (silent pos List.mem_cons_self copied)
        rw [List.foldl_cons, readNetworkName, if_pos ⟨copied, empty⟩, ih next behind,
          getElem_copyName name pos inside, lastWrite]
        cases lastWrite sec i later with
        | some value => rfl
        | none =>
            simp only [Option.none_or, copied, true_and]
            rcases Nat.lt_trichotomy i (nameCopy sec pos) with within | last | beyond
            · rw [if_pos within, if_pos (Nat.le_of_lt within), if_pos within]
              rfl
            · have reached := Nat.not_lt.mpr (Nat.le_of_eq last.symm)
              rw [if_neg reached, if_pos last, if_pos (Nat.le_of_eq last), if_neg reached]
              rfl
            · rw [if_neg (Nat.lt_asymm beyond), if_neg (Nat.ne_of_gt beyond),
                if_neg (Nat.not_le.mpr beyond)]
      · rw [List.foldl_cons, readNetworkName, if_neg fun both => copied both.1, ih empty behind,
          lastWrite, if_neg fun both => copied both.1, Option.or_none]

/-- Reading the same names again changes nothing. -/
theorem foldl_name_again (name : NetworkName) (positions : List Nat) :
    positions.foldl (readNetworkName sec) (positions.foldl (readNetworkName sec) name) =
      positions.foldl (readNetworkName sec) name := by
  by_cases empty : (positions.foldl (readNetworkName sec) name)[0] = 0
  · obtain ⟨before, silent⟩ := empty_of_foldl empty
    apply Vector.ext
    intro i inside
    rw [getElem_foldl_empty empty silent inside, getElem_foldl_empty before silent inside]
    cases lastWrite sec i positions <;> rfl
  · exact foldl_named empty positions

end Name

/-! ## The list is a set, and never half-written -/

theorem dtvTsParseNit_code (sec : List UInt8) (result : Network) :
    dtvTsParseNit sec result = (-1, result) ∨
      ∀ other : Network, dtvTsParseNit sec other =
        (0, { name := (wholeDescriptors sec 10 (10 + be12 sec 8)).foldl (readNetworkName sec)
                other.name
              tps := readTransports sec (transportEntries sec) other.tps }) := by
  unfold dtvTsParseNit
  split
  · exact .inl rfl
  split
  · exact .inl rfl
  split
  · exact .inl rfl
  split
  · exact .inl rfl
  split
  · exact .inl rfl
  · exact .inr fun _ => rfl

theorem listed_networkOf (sections : List (List UInt8)) : Listed (networkOf sections).tps := by
  induction sections using List.reverseRecOn with
  | nil => exact ⟨Nat.zero_le _, nofun, List.nodup_nil⟩
  | append_singleton sections sec ih =>
      rw [networkOf, List.foldl_append]
      rcases dtvTsParseNit_code sec (networkOf sections) with refused | read
      · change Listed (dtvTsParseNit sec (networkOf sections)).2.tps
        rw [refused]
        exact ih
      · change Listed (dtvTsParseNit sec (networkOf sections)).2.tps
        rw [read]
        exact ih.readTransports _

/-- The transponders of a network are a set that is never half-written. -/
theorem network_tps_set (sections : List (List UInt8)) (sec : List UInt8) :
    ((dtvTsParseNit sec (networkOf sections)).1 = -1 →
      (dtvTsParseNit sec (networkOf sections)).2 = networkOf sections) ∧
    ((dtvTsParseNit sec (networkOf sections)).1 ≠ -1 →
      (networkOf sections).tps <+: (dtvTsParseNit sec (networkOf sections)).2.tps ∧
      Listed (dtvTsParseNit sec (networkOf sections)).2.tps ∧
      dtvTsParseNit sec (dtvTsParseNit sec (networkOf sections)).2 =
        dtvTsParseNit sec (networkOf sections)) := by
  rcases dtvTsParseNit_code sec (networkOf sections) with refused | read
  · rw [refused]
    exact ⟨fun _ => rfl, fun parsed => absurd rfl parsed⟩
  · rw [read, read]
    refine ⟨fun failed => absurd failed (show (0 : Int) ≠ -1 by decide), fun _ =>
      ⟨readTransports_grows _ _, (listed_networkOf sections).readTransports _, ?_⟩⟩
    rw [foldl_name_again, readTransports_again List.prefix_rfl]

end Scan

import Mathlib.Algebra.BigOperators.Group.Finset.Piecewise
import Mathlib.Data.Finset.Card
import Mathlib.Data.List.AList
import UsbDvbs2.Runs.Adjacent
import UsbDvbs2.Stream.Psi

/-! # Counting continuity gaps

The stream thread checks the counters of what it forwards, pid by pid. It looks at packets
with payload only, so a discontinuity that a packet without payload declares is missed.
-/

namespace Stream

open Bytes Runs

/-! ## Packets -/

/-- `adaptation_field_control`. -/
def Packet.afc (packet : Packet) : Nat := octet packet.bytes 3 / 16 % 4

def Packet.cc (packet : Packet) : Nat := octet packet.bytes 3 % 16

def Packet.hasPayload (packet : Packet) : Bool := packet.afc = 1 ∨ packet.afc = 3

/-- The flag in an adaptation field that has room for it. -/
def Packet.flagged (packet : Packet) : Bool :=
  (packet.afc = 2 ∨ packet.afc = 3) ∧ 1 ≤ octet packet.bytes 4 ∧ 128 ≤ octet packet.bytes 5

/-! ## The check -/

/-- `cc_state`, the `next_cc` of every pid that has a slot, and `cc_errors`. -/
structure CcCheck where
  slots : AList fun _ : UInt16 => Nat
  errors : Nat

def ccSlots : Nat := 24

namespace CcCheck

/-- As a channel change leaves it. -/
def reset : CcCheck := { slots := ∅, errors := 0 }

/-- A counter that is neither the next one nor repeated. -/
def gap (next : Nat) (packet : Packet) : Bool :=
  ¬ (packet.afc = 3 ∧ 1 ≤ octet packet.bytes 4 ∧ 128 ≤ octet packet.bytes 5) ∧
    packet.cc ≠ next ∧ packet.cc ≠ (next + 15) % 16

/-- The check of a forwarded packet. -/
def forward (check : CcCheck) (packet : Packet) : CcCheck :=
  if packet.afc = 1 ∨ packet.afc = 3 then
    match check.slots.lookup packet.pid with
    | none =>
        if check.slots.keys.length < ccSlots then
          { check with slots := check.slots.insert packet.pid ((packet.cc + 1) % 16) }
        else check
    | some next =>
        { slots := check.slots.insert packet.pid ((packet.cc + 1) % 16)
          errors := if gap next packet then check.errors + 1 else check.errors }
  else check

def run (packets : List Packet) : CcCheck := packets.foldl forward reset

end CcCheck

/-! ## What the count is meant to be -/

/-- What a packet may be behind the last one of its pid: a declared discontinuity, one on with
payload, a repetition, or the same without payload. -/
def Continues (last packet : Packet) : Prop :=
  packet.flagged ∨
    if packet.hasPayload then
      packet.cc = (last.cc + 1) % 16 ∨ last.hasPayload ∧ packet.cc = last.cc
    else packet.cc = last.cc

instance (last packet : Packet) : Decidable (Continues last packet) :=
  inferInstanceAs (Decidable (_ ∨ _))

/-- On every pid, each packet continues from the one before it. -/
def LossFree (packets : List Packet) : Prop :=
  ∀ pid, (ofKey Packet.pid pid packets).IsChain Continues

/-- A packet with payload is accepted behind another one. -/
def Accepted (last packet : Packet) : Prop :=
  packet.flagged ∨ packet.cc = (last.cc + 1) % 16 ∨ packet.cc = last.cc

instance : DecidableRel Accepted := fun last packet =>
  inferInstanceAs (Decidable (packet.flagged ∨ packet.cc = (last.cc + 1) % 16 ∨ _))

/-- Where packets without payload declare a discontinuity, the next packet of the pid with
payload declares it again, or its counter goes on from the last one with payload. -/
def DeclaredWithPayload (packets : List Packet) : Prop :=
  ∀ pid front first between second back,
    ofKey Packet.pid pid packets = front ++ first :: (between ++ second :: back) →
    first.hasPayload → (∀ packet ∈ between, ¬ packet.hasPayload) → second.hasPayload →
    (∃ packet ∈ between, packet.flagged) → Accepted first second

/-- The packets of a pid that have payload. -/
def payloads (pid : UInt16) (packets : List Packet) : List Packet :=
  ofKey Packet.pid pid (packets.filter Packet.hasPayload)

/-- One on, with no discontinuity declared. -/
def OneOn (last packet : Packet) : Prop := ¬ packet.flagged ∧ packet.cc = (last.cc + 1) % 16

instance : DecidableRel OneOn := fun last packet =>
  inferInstanceAs (Decidable (¬ packet.flagged ∧ packet.cc = (last.cc + 1) % 16))

/-- Without the packets of a pid that have payload. -/
def withoutPayloads (pid : UInt16) (packets : List Packet) : List Packet :=
  packets.filter fun packet => ¬ (packet.pid = pid ∧ packet.hasPayload)

/-- The forwarded packets use at most as many pids as there are slots. -/
def FewPids (packets : List Packet) : Prop :=
  (packets.map Packet.pid).toFinset.card ≤ ccSlots

instance (packets : List Packet) : Decidable (FewPids packets) :=
  inferInstanceAs (Decidable (_ ≤ _))

/-! ## What is counted -/

theorem gap_eq {last packet : Packet} (payload : packet.hasPayload = true) :
    CcCheck.gap ((last.cc + 1) % 16) packet = decide (¬ Accepted last packet) := by
  have small : last.cc < 16 := Nat.mod_lt _ (by decide)
  have again : ((last.cc + 1) % 16 + 15) % 16 = last.cc := by omega
  have kinds : packet.afc = 1 ∨ packet.afc = 3 := of_decide_eq_true payload
  have flag : packet.flagged = true ↔
      packet.afc = 3 ∧ 1 ≤ octet packet.bytes 4 ∧ 128 ≤ octet packet.bytes 5 := by
    rw [Packet.flagged, decide_eq_true_eq]
    exact and_congr_left' ⟨fun field => by omega, .inr⟩
  rw [CcCheck.gap, again, decide_eq_decide, Accepted, flag, not_or, not_or]

theorem payloads_append (pid : UInt16) (front back : List Packet) :
    payloads pid (front ++ back) = payloads pid front ++ payloads pid back := by
  rw [payloads, List.filter_append, ofKey, List.filter_append]
  rfl

theorem payloads_eq (pid : UInt16) (packets : List Packet) :
    payloads pid packets = (ofKey Packet.pid pid packets).filter Packet.hasPayload :=
  List.filter_comm ..

theorem payloads_concat (pid : UInt16) (packets : List Packet) {packet : Packet}
    (payload : packet.hasPayload = true) :
    payloads pid (packets ++ [packet]) =
      if packet.pid = pid then payloads pid packets ++ [packet] else payloads pid packets := by
  have own : payloads pid [packet] = if packet.pid = pid then [packet] else [] := by
    rw [payloads, List.filter_singleton, payload, cond_true, ofKey, List.filter_singleton]
    split <;> simp [*]
  rw [payloads_append, own]
  split
  · rfl
  · exact List.append_nil _

/-- The slots know the last packet of every pid, and the errors are the breaks on all pids. -/
structure CcCheck.Counts (check : CcCheck) (pids : Finset UInt16) (packets : List Packet) :
    Prop where
  slots : ∀ pid, check.slots.lookup pid =
    (payloads pid packets).getLast?.map fun last => (last.cc + 1) % 16
  known : ∀ pid ∈ check.slots.keys, pid ∈ pids
  errors : check.errors = ∑ pid ∈ pids, breaks Accepted (payloads pid packets)

namespace CcCheck.Counts

variable {check : CcCheck} {pids : Finset UInt16} {packets : List Packet} {packet : Packet}

/-- Storing the counter of a packet that was counted or not. -/
theorem store (counts : check.Counts pids packets) (listed : packet.pid ∈ pids)
    (payload : packet.hasPayload = true) {errors : Nat}
    (added : errors = check.errors +
      broken Accepted (payloads packet.pid packets).getLast? (some packet)) :
    CcCheck.Counts ⟨check.slots.insert packet.pid ((packet.cc + 1) % 16), errors⟩ pids
      (packets ++ [packet]) where
  slots pid := by
    rw [payloads_concat pid packets payload]
    by_cases own : packet.pid = pid
    · subst own
      rw [if_pos rfl, AList.lookup_insert, List.getLast?_concat]
      rfl
    · rw [if_neg own, AList.lookup_insert_ne (Ne.symm own)]
      exact counts.slots pid
  known pid stored := by
    rw [AList.keys_insert] at stored
    rcases List.mem_cons.mp stored with rfl | older
    · exact listed
    · exact counts.known pid (List.mem_of_mem_erase older)
  errors := by
    have sum := @sum_breaks_concat _ _ Accepted _ _ Packet.pid pids
      (packets.filter Packet.hasPayload) packet listed
    have kept : (packets ++ [packet]).filter Packet.hasPayload =
        packets.filter Packet.hasPayload ++ [packet] := by
      rw [List.filter_append, List.filter_singleton, payload]
      rfl
    simp only [payloads, kept]
    rw [sum, added, counts.errors]
    rfl

/-- A pid without a slot finds room for one. -/
theorem room (counts : check.Counts pids packets) (few : pids.card ≤ ccSlots)
    (listed : packet.pid ∈ pids) (unknown : check.slots.lookup packet.pid = none) :
    check.slots.keys.length < ccSlots := by
  have absent : packet.pid ∉ check.slots.keys := fun stored =>
    AList.lookup_eq_none.mp unknown (AList.mem_keys.mpr stored)
  have inside : insert packet.pid check.slots.keys.toFinset ⊆ pids := by
    intro pid member
    rcases Finset.mem_insert.mp member with rfl | stored
    · exact listed
    · exact counts.known pid (List.mem_toFinset.mp stored)
  have size := Finset.card_le_card inside
  rw [Finset.card_insert_of_notMem (fun stored => absent (List.mem_toFinset.mp stored)),
    List.toFinset_card_of_nodup check.slots.keys_nodup] at size
  exact Nat.lt_of_lt_of_le size few

theorem forward (counts : check.Counts pids packets) (few : pids.card ≤ ccSlots)
    (listed : packet.pid ∈ pids) :
    (check.forward packet).Counts pids (packets ++ [packet]) := by
  by_cases payload : packet.hasPayload = true
  · have looked := of_decide_eq_true payload
    have before := counts.slots packet.pid
    rw [CcCheck.forward, if_pos looked]
    cases found : (payloads packet.pid packets).getLast? with
    | none =>
        rw [found, Option.map_none] at before
        rw [before]
        simp only [if_pos (counts.room few listed before)]
        exact counts.store listed payload (by rw [found]; rfl)
    | some last =>
        rw [found, Option.map_some] at before
        rw [before]
        refine counts.store listed payload ?_
        rw [found, gap_eq payload, broken]
        by_cases accepted : Accepted last packet
        · simp only [accepted, not_true_eq_false, decide_false, Bool.false_eq_true, if_false,
            if_true, Nat.add_zero]
        · simp only [accepted, not_false_eq_true, decide_true, if_true, if_false]
  · have unlooked : ¬ (packet.afc = 1 ∨ packet.afc = 3) := fun kinds =>
      payload (decide_eq_true kinds)
    have kept : ∀ pid, payloads pid (packets ++ [packet]) = payloads pid packets := by
      intro pid
      rw [payloads, List.filter_append, List.filter_singleton, Bool.eq_false_iff.mpr payload,
        cond_false, List.append_nil]
      rfl
    rw [CcCheck.forward, if_neg unlooked]
    refine ⟨fun pid => ?_, counts.known, ?_⟩
    · rw [kept]
      exact counts.slots pid
    · simp only [kept]
      exact counts.errors

theorem run (few : pids.card ≤ ccSlots) {packets : List Packet}
    (listed : ∀ packet ∈ packets, packet.pid ∈ pids) :
    (CcCheck.run packets).Counts pids packets := by
  induction packets using List.reverseRecOn with
  | nil => exact ⟨fun _ => rfl, nofun, (Finset.sum_eq_zero fun _ _ => rfl).symm⟩
  | append_singleton packets packet ih =>
      rw [CcCheck.run, List.foldl_append]
      exact (ih fun other there => listed other (List.mem_append_left _ there)).forward few
        (listed packet (List.mem_append_right _ (List.mem_singleton_self packet)))

end CcCheck.Counts

variable {packets : List Packet}

theorem pid_listed {packet : Packet} (there : packet ∈ packets) :
    packet.pid ∈ (packets.map Packet.pid).toFinset :=
  List.mem_toFinset.mpr (List.mem_map_of_mem there)

theorem payloads_unlisted {pid : UInt16} (absent : ∀ packet ∈ packets, packet.pid ≠ pid) :
    payloads pid packets = [] := by
  rw [payloads, ofKey, List.filter_eq_nil_iff]
  intro packet there
  rw [decide_eq_true_eq]
  exact absent packet (List.mem_of_mem_filter there)

/-! ## A stream without losses -/

/-- Nothing is counted exactly when every packet with payload is accepted behind the last one
of its pid. -/
theorem errors_eq_zero (few : FewPids packets) :
    (CcCheck.run packets).errors = 0 ↔ ∀ pid, (payloads pid packets).IsChain Accepted := by
  rw [(CcCheck.Counts.run few fun _ there => pid_listed there).errors, Finset.sum_eq_zero_iff]
  constructor
  · intro zero pid
    by_cases listed : pid ∈ (packets.map Packet.pid).toFinset
    · exact breaks_eq_zero.mp (zero pid listed)
    · have absent : ∀ packet ∈ packets, packet.pid ≠ pid := by
        rintro packet there rfl
        exact listed (pid_listed there)
      rw [payloads_unlisted absent]
      exact .nil
  · exact fun chains pid _ => breaks_eq_zero.mpr (chains pid)

/-- Behind packets without payload that declare nothing, the counter still goes on. -/
theorem accepted_of_undeclared {last second : Packet} {between : List Packet}
    (chain : (last :: (between ++ [second])).IsChain Continues)
    (empty : ∀ packet ∈ between, ¬ packet.hasPayload)
    (undeclared : ∀ packet ∈ between, ¬ packet.flagged) (payload : second.hasPayload = true) :
    Accepted last second := by
  induction between generalizing last with
  | nil =>
      rcases List.isChain_pair.mp chain with declared | counted
      · exact .inl declared
      · rw [if_pos payload] at counted
        exact .inr (counted.imp_right And.right)
  | cons packet between ih =>
      obtain ⟨first, rest⟩ := List.isChain_cons_cons.mp chain
      have later := ih rest (fun other there => empty other (List.mem_cons_of_mem _ there))
        fun other there => undeclared other (List.mem_cons_of_mem _ there)
      rcases first with declared | counted
      · exact absurd declared (undeclared packet List.mem_cons_self)
      · rw [if_neg (empty packet List.mem_cons_self)] at counted
        unfold Accepted at later ⊢
        rwa [counted] at later

/-- On a stream without losses nothing is counted exactly when the discontinuities that are
declared without payload are declared again, or do not show. -/
theorem loss_free_errors (few : FewPids packets) (lossFree : LossFree packets) :
    (CcCheck.run packets).errors = 0 ↔ DeclaredWithPayload packets := by
  rw [errors_eq_zero few]
  simp only [payloads_eq, isChain_filter_iff]
  constructor
  · exact fun all pid front first between second back split kept gone kept' _ =>
      all pid front first between second back split kept gone kept'
  · intro declared pid front first between second back split kept gone kept'
    by_cases flagged : ∃ packet ∈ between, packet.flagged
    · exact declared pid front first between second back split kept gone kept' flagged
    · have chain := lossFree pid
      rw [split, List.isChain_split] at chain
      have part := chain.2
      rw [List.isChain_cons_split] at part
      exact accepted_of_undeclared part.1 gone
        (fun packet there flag => flagged ⟨packet, there, flag⟩) kept'

/-! ## A stretch that is lost -/

theorem OneOn.accepted {last packet : Packet} (oneOn : OneOn last packet) :
    Accepted last packet :=
  .inr (.inl oneOn.2)

/-- Counters that go on one by one. -/
theorem cc_of_chain {last packet : Packet} {between : List Packet}
    (chain : (last :: (between ++ [packet])).IsChain OneOn) :
    packet.cc = (last.cc + between.length + 1) % 16 ∧ ¬ packet.flagged := by
  induction between generalizing last with
  | nil =>
      obtain ⟨undeclared, counted⟩ := List.isChain_pair.mp chain
      exact ⟨counted, undeclared⟩
  | cons next between ih =>
      obtain ⟨first, rest⟩ := List.isChain_cons_cons.mp chain
      obtain ⟨counted, undeclared⟩ := ih rest
      have one := first.2
      rw [List.length_cons]
      exact ⟨by omega, undeclared⟩

/-- Where the stretch was, the counter is found broken or not by its length alone. -/
theorem broken_across {front middle back : List Packet}
    (steady : (front.getLast?.toList ++ middle ++ back.head?.toList).IsChain OneOn) :
    broken Accepted front.getLast? back.head? =
      if front ≠ [] ∧ back ≠ [] ∧ middle.length % 16 ≠ 0 ∧ middle.length % 16 ≠ 15 then 1
      else 0 := by
  cases last : front.getLast? with
  | none =>
      rw [List.getLast?_eq_none_iff] at last
      rw [if_neg fun both => both.1 last]
      rfl
  | some a =>
      have before : front ≠ [] := by
        rintro rfl
        exact nomatch last
      cases back with
      | nil => rw [if_neg fun both => both.2.1 rfl]; rfl
      | cons b back =>
          rw [last] at steady
          obtain ⟨counted, undeclared⟩ := @cc_of_chain a b middle steady
          have small : a.cc < 16 := Nat.mod_lt _ (by decide)
          have accepted : Accepted a b ↔ middle.length % 16 = 0 ∨ middle.length % 16 = 15 := by
            rw [Accepted, or_iff_right undeclared, counted]
            omega
          simp only [List.head?_cons, broken, accepted, before, ne_eq, not_false_eq_true,
            reduceCtorEq, true_and]
          by_cases whole : middle.length % 16 = 0 ∨ middle.length % 16 = 15
          · rw [if_pos whole, if_neg fun both => whole.elim both.1 both.2]
          · rw [if_neg whole, if_pos (not_or.mp whole)]

theorem payloads_withoutPayloads (pid other : UInt16) (packets : List Packet) :
    payloads other (withoutPayloads pid packets) =
      if other = pid then [] else payloads other packets := by
  unfold payloads withoutPayloads ofKey
  rw [List.filter_filter, List.filter_filter]
  split
  · rename_i own
    subst own
    rw [List.filter_eq_nil_iff]
    simp only [Bool.and_eq_true, decide_eq_true_eq, not_and]
    exact fun packet _ both kept => kept both.1 both.2
  · rename_i differs
    rw [List.filter_filter]
    refine List.filter_congr fun packet _ => ?_
    by_cases own : packet.pid = other
    · have kept : ¬ (packet.pid = pid ∧ packet.hasPayload = true) := fun both =>
        differs (own.symm.trans both.1)
      simp only [kept, not_false_eq_true, decide_true, Bool.and_true]
    · simp only [own, decide_false, Bool.false_and]

/-- Losing packets of a pid one behind the other: other pids do not matter. -/
theorem errors_cut {front middle back : List Packet} {pid : UInt16}
    (few : FewPids (front ++ middle ++ back))
    (steady : ((payloads pid front).getLast?.toList ++ payloads pid middle ++
      (payloads pid back).head?.toList).IsChain OneOn) :
    (CcCheck.run (front ++ withoutPayloads pid middle ++ back)).errors =
      (CcCheck.run (front ++ middle ++ back)).errors +
        broken Accepted (payloads pid front).getLast? (payloads pid back).head? := by
  have inside : ∀ packet ∈ front ++ withoutPayloads pid middle ++ back,
      packet.pid ∈ ((front ++ middle ++ back).map Packet.pid).toFinset := by
    intro packet there
    apply pid_listed
    simp only [List.mem_append, withoutPayloads, List.mem_filter] at there ⊢
    exact there.imp_left (Or.imp_right And.left)
  rw [(CcCheck.Counts.run few inside).errors,
    (CcCheck.Counts.run few fun _ there => pid_listed there).errors]
  have each : ∀ name,
      breaks Accepted (payloads name (front ++ withoutPayloads pid middle ++ back)) =
      breaks Accepted (payloads name (front ++ middle ++ back)) +
        if name = pid then broken Accepted (payloads pid front).getLast? (payloads pid back).head?
        else 0 := by
    intro name
    simp only [payloads_append, payloads_withoutPayloads]
    by_cases own : name = pid
    · subst own
      have sound := steady.imp (S := Accepted) fun _ _ => OneOn.accepted
      rw [if_pos rfl, if_pos rfl, List.append_nil, breaks_append, breaks_cut sound]
      omega
    · rw [if_neg own, if_neg own, Nat.add_zero]
  simp only [each, Finset.sum_add_distrib, Finset.sum_ite_eq']
  split
  · rfl
  · rename_i unlisted
    have absent : ∀ packet ∈ front, packet.pid ≠ pid := by
      rintro packet there rfl
      exact unlisted (pid_listed (List.mem_append_left _ (List.mem_append_left _ there)))
    rw [payloads_unlisted absent]
    rfl

/-- A packet of pid 0x100 whose third and fourth bytes are given, behind a full adaptation
field if the third says so. -/
def counted (control flags : UInt8) : Packet where
  bytes := [0x47, 0x01, 0x00, control, 0xb7, flags] ++ List.replicate 182 0xff
  size := rfl

theorem lossFree_counted {packets : List Packet} (same : ∀ packet ∈ packets, packet.pid = 0x100)
    (chain : packets.IsChain Continues) : LossFree packets := by
  intro pid
  by_cases own : pid = 0x100
  · subst own
    rw [ofKey, List.filter_eq_self.mpr fun packet there => decide_eq_true (same packet there)]
    exact chain
  · rw [ofKey, List.filter_eq_nil_iff.mpr fun packet there => by
      rw [decide_eq_true_eq, same packet there]
      exact Ne.symm own]
    exact .nil

/-- Between two packets with payload, one without says that the counter starts anew. -/
def declaredApart : List Packet := [counted 0x10 0xff, counted 0x25 0x80, counted 0x16 0xff]

end Stream

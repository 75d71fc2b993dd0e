import UsbDvbs2.Stream.EventGuide

/-! # The filter of sent events

`epg_already_sent` answers from a table of 8192 slots that is cleared with the channel and
when three quarters of it are taken. Between two such times it is the set of what was asked.
-/

namespace Stream

open Probing

/-- A call of `epg_already_sent`. -/
structure SentCall where
  serviceId : UInt16
  eventId : UInt16
  version : Int32

/-- Service, event and version modulo 32. -/
abbrev EventName : Type := UInt16 × UInt16 × Int

def SentCall.name (call : SentCall) : EventName :=
  (call.serviceId, call.eventId, call.version.toInt % 32)

/-- The key of a call; the version is masked as the bits of an `int`. -/
def SentCall.key (call : SentCall) : UInt64 :=
  seenKey call.serviceId call.eventId call.version.toUInt32.toNat

def EpgSeen.ask (seen : EpgSeen) (call : SentCall) : Bool × EpgSeen :=
  seen.alreadySent call.serviceId call.eventId call.version.toUInt32.toNat

inductive SentInput where
  | call (call : SentCall)
  | setChannel

/-- The table, and what was passed since it was cleared. -/
structure SentHistory where
  seen : EpgSeen
  passed : List EventName

namespace SentHistory

def boot : SentHistory := { seen := .cleared, passed := [] }

/-- What a call finds to have been passed: nothing, if it is the one that clears. -/
def since (history : SentHistory) : List EventName :=
  if epgSeenSlots * 3 ≤ history.seen.count * 4 then [] else history.passed

def take (history : SentHistory) : SentInput → SentHistory
  | .call call => { seen := (history.seen.ask call).2, passed := history.since ++ [call.name] }
  | .setChannel => .boot

def run (inputs : List SentInput) : SentHistory := inputs.foldl take boot

end SentHistory

/-! ## Keys -/

theorem seenKey_toNat (serviceId eventId : UInt16) (version : Nat) :
    (seenKey serviceId eventId version).toNat =
      2 ^ 40 + (serviceId.toNat * 2 ^ 24 + (eventId.toNat * 2 ^ 8 + version % 32)) := by
  have service : serviceId.toNat < 2 ^ 16 := serviceId.toNat_lt
  have event : eventId.toNat < 2 ^ 16 := eventId.toNat_lt
  have small : version % 32 < 2 ^ 8 := Nat.lt_trans (Nat.mod_lt _ (by decide)) (by decide)
  have low : eventId.toNat <<< 8 ||| version % 32 = eventId.toNat * 2 ^ 8 + version % 32 := by
    rw [← Nat.shiftLeft_add_eq_or_of_lt small, Nat.shiftLeft_eq]
  have middle : serviceId.toNat <<< 24 ||| (eventId.toNat * 2 ^ 8 + version % 32) =
      serviceId.toNat * 2 ^ 24 + (eventId.toNat * 2 ^ 8 + version % 32) := by
    rw [← Nat.shiftLeft_add_eq_or_of_lt (by omega), Nat.shiftLeft_eq]
  have high : 1 <<< 40 ||| (serviceId.toNat * 2 ^ 24 + (eventId.toNat * 2 ^ 8 + version % 32)) =
      2 ^ 40 + (serviceId.toNat * 2 ^ 24 + (eventId.toNat * 2 ^ 8 + version % 32)) := by
    rw [← Nat.shiftLeft_add_eq_or_of_lt (by omega), Nat.shiftLeft_eq, Nat.one_mul]
  have number : (UInt64.ofNat (version % 32)).toNat = version % 32 :=
    UInt64.toNat_ofNat_of_lt' (Nat.lt_trans small (by decide))
  have first : (serviceId.toUInt64 <<< 24).toNat = serviceId.toNat <<< 24 := by
    rw [UInt64.toNat_shiftLeft, UInt16.toNat_toUInt64]
    apply Nat.mod_eq_of_lt
    rw [Nat.shiftLeft_eq, show UInt64.toNat 24 % 64 = 24 by decide]
    omega
  have second : (eventId.toUInt64 <<< 8).toNat = eventId.toNat <<< 8 := by
    rw [UInt64.toNat_shiftLeft, UInt16.toNat_toUInt64]
    apply Nat.mod_eq_of_lt
    rw [Nat.shiftLeft_eq, show UInt64.toNat 8 % 64 = 8 by decide]
    omega
  rw [seenKey, UInt64.toNat_or, UInt64.toNat_or, UInt64.toNat_or, first, second, number,
    Nat.or_assoc (serviceId.toNat <<< 24), low, middle, Nat.or_comm]
  exact high

theorem SentCall.version_mod (call : SentCall) :
    ((call.version.toUInt32.toNat % 32 : Nat) : Int) = call.version.toInt % 32 := by
  have split := BitVec.toInt_eq_toNat_cond call.version.toBitVec
  change _ = call.version.toBitVec.toInt % 32
  change ((call.version.toBitVec.toNat % 32 : Nat) : Int) = _
  rw [split]
  split <;> omega

/-- Calls have one key exactly when they name the same service, event and version. -/
theorem SentCall.key_eq_iff (call other : SentCall) :
    call.key = other.key ↔ call.name = other.name := by
  have service := call.serviceId.toNat_lt
  have service' := other.serviceId.toNat_lt
  have event := call.eventId.toNat_lt
  have event' := other.eventId.toNat_lt
  have version := call.version_mod
  have version' := other.version_mod
  rw [← UInt64.toNat_inj, key, key, seenKey_toNat, seenKey_toNat, name, name, Prod.mk.injEq,
    Prod.mk.injEq, ← UInt16.toNat_inj, ← UInt16.toNat_inj]
  omega

theorem SentCall.key_ne (call : SentCall) : call.key ≠ 0 :=
  seenKey_ne call.serviceId call.eventId call.version.toUInt32.toNat

/-! ## The table is the set of what was passed -/

/-- The table is searchable, counts its slots, has room and holds what was passed. -/
structure SentHistory.Exact (history : SentHistory) : Prop where
  sound : history.seen.Sound
  counted : history.seen.count = (taken 0 history.seen.slots).card
  room : history.seen.count < epgSeenSlots
  stored : ∀ call : SentCall,
    (∃ slot, history.seen.slots slot = call.key) ↔ call.name ∈ history.passed

namespace SentHistory.Exact

variable {history : SentHistory}

theorem boot : SentHistory.boot.Exact where
  sound := .cleared
  counted := card_taken_cleared.symm
  room := by decide
  stored call := iff_of_false (fun ⟨_, same⟩ => call.key_ne same.symm) List.not_mem_nil

/-- A call searches a table that is exact as well, and less than three quarters full. -/
theorem started (exact : history.Exact) :
    SentHistory.Exact ⟨history.seen.started, history.since⟩ ∧
      history.seen.started.count * 4 < epgSeenSlots * 3 := by
  unfold EpgSeen.started SentHistory.since
  by_cases full : epgSeenSlots * 3 ≤ history.seen.count * 4
  · rw [if_pos full, if_pos full]
    exact ⟨boot, by decide⟩
  · rw [if_neg full, if_neg full]
    exact ⟨exact, Nat.lt_of_not_le full⟩

/-- The search ends before every slot was tried. -/
theorem ends (exact : history.Exact) (call : SentCall) :
    probe 0 history.seen.started.slots call.key epgSeenSlots (seenSlot call.key) ≠ .full := by
  apply probe_ne_full
  rw [← exact.started.1.counted]
  exact exact.started.1.room

theorem answer (exact : history.Exact) (call : SentCall) :
    (history.seen.ask call).1 = true ↔ call.name ∈ history.since :=
  (exact.sound.alreadySent ..).1.trans (exact.started.1.stored call)

theorem take (exact : history.Exact) (input : SentInput) : (history.take input).Exact := by
  cases input with
  | setChannel => exact boot
  | call call =>
      obtain ⟨searched, spare⟩ := exact.started
      have sound := (exact.sound.alreadySent call.serviceId call.eventId
        call.version.toUInt32.toNat).2
      have answered := exact.answer call
      change SentHistory.Exact ⟨(history.seen.ask call).2, history.since ++ [call.name]⟩
      cases ended : probe 0 history.seen.started.slots call.key epgSeenSlots
          (seenSlot call.key) with
      | full => exact absurd ended (exact.ends call)
      | found =>
          have asked : history.seen.ask call = (true, history.seen.started) := by
            rw [EpgSeen.ask, EpgSeen.alreadySent]
            simp only [SentCall.key] at ended
            simp only [ended]
          rw [asked] at answered ⊢
          have passed := answered.mp rfl
          refine ⟨searched.sound, searched.counted, searched.room, fun other => ?_⟩
          rw [searched.stored other, List.mem_append, List.mem_singleton]
          exact ⟨.inl, fun listed => listed.elim id fun same => same ▸ passed⟩
      | free slot =>
          have empty := empty_of_free ended
          have asked : history.seen.ask call = (false,
              { slots := Function.update history.seen.started.slots slot call.key
                count := history.seen.started.count + 1 }) := by
            rw [EpgSeen.ask, EpgSeen.alreadySent]
            simp only [SentCall.key] at ended
            simp only [ended]
            rfl
          change (history.seen.ask call).2.Sound at sound
          rw [asked] at sound ⊢
          refine ⟨sound, ?_, ?_, fun other => ?_⟩
          · rw [card_taken_update empty call.key_ne, ← searched.counted]
          · change history.seen.started.count + 1 < 8192
            change history.seen.started.count * 4 < 24576 at spare
            omega
          · rw [stored_update empty other.key_ne, searched.stored other, List.mem_append,
              List.mem_singleton, SentCall.key_eq_iff, or_comm]

theorem run (inputs : List SentInput) : (SentHistory.run inputs).Exact := by
  induction inputs using List.reverseRecOn with
  | nil => exact boot
  | append_singleton inputs input ih =>
      rw [SentHistory.run, List.foldl_append]
      exact ih.take input

end SentHistory.Exact

/-- The filter is an exact set: whatever came before, a call is answered by whether its name
was passed since the table was cleared, the search ends at the key or at a free slot, and the
count is that of the taken slots. -/
theorem sent_events_exact (inputs : List SentInput) (call : SentCall) :
    (((SentHistory.run inputs).seen.ask call).1 = true ↔
      call.name ∈ (SentHistory.run inputs).since) ∧
    probe 0 (SentHistory.run inputs).seen.started.slots call.key epgSeenSlots
      (seenSlot call.key) ≠ .full ∧
    (SentHistory.run inputs).seen.count =
      (taken 0 (SentHistory.run inputs).seen.slots).card :=
  have exact := SentHistory.Exact.run inputs
  ⟨exact.answer call, exact.ends call, exact.counted⟩

end Stream
